/-! Ranges over any kind of bound. -/
namespace TypedSql

/-- One end of a range. -/
inductive Bound (α : Type) where
  | inclusive (a : α)
  | exclusive (a : α)
  | unbounded
  deriving DecidableEq, Repr

/-- A range: no points at all, or those between two bounds. -/
inductive Range (α : Type) where
  | empty
  | between (lower upper : Bound α)
  deriving DecidableEq, Repr

variable {α β ε : Type}

/-- Transforms the value of a bound and keeps whether it is included. -/
def Bound.mapM (f : α → Except ε β) : Bound α → Except ε (Bound β)
  | inclusive a => inclusive <$> f a
  | exclusive a => exclusive <$> f a
  | unbounded => .ok unbounded

/-- Transforms both bounds, the lower first. -/
def Range.mapM (f : α → Except ε β) : Range α → Except ε (Range β)
  | empty => .ok empty
  | between lower upper => do return between (← lower.mapM f) (← upper.mapM f)

end TypedSql

import TypedSql.Value.Basic

/-! Values by induction, the members of lists and the bounds of ranges at once. -/
namespace TypedSql

/-- The value of a bound that has one. -/
def Bound.values {α : Type} : Bound α → List α
  | inclusive a | exclusive a => [a]
  | unbounded => []

/-- The values of the bounds of a range. -/
def Range.bounds {α : Type} : Range α → List α
  | empty => []
  | between lower upper => lower.values ++ upper.values

@[elab_as_elim] theorem Value.induction {P : Value → Prop} (null : P .null)
    (scalar : ∀ s, P (.scalar s)) (enum : ∀ label, P (.enum label))
    (domain : ∀ inner, P inner → P (.domain inner))
    (record : ∀ fields, (∀ p ∈ fields, P p.2) → P (.record fields))
    (array : ∀ items, (∀ v ∈ items, P v) → P (.array items))
    (range : ∀ r, (∀ v ∈ r.bounds, P v) → P (.range r)) (v : Value) : P v := by
  refine @Value.rec P (fun fields => ∀ p ∈ fields, P p.2) (fun items => ∀ v ∈ items, P v)
    (fun r => ∀ v ∈ r.bounds, P v) (fun p => P p.2) (fun b => ∀ v ∈ b.values, P v)
    null scalar enum domain record array range ?_ ?_ ?_ ?_ ?_ ?_ (fun _ _ ih => ih) ?_ ?_ ?_ v <;>
    simp_all [Range.bounds, Bound.values, or_imp]

@[elab_as_elim] theorem Wire.induction {P : Wire → Prop} (null : P .null)
    (scalar : ∀ s, P (.scalar s))
    (array : ∀ element items, (∀ w ∈ items, P w) → P (.array element items))
    (record : ∀ fields, (∀ w ∈ fields, P w) → P (.record fields))
    (range : ∀ r, (∀ w ∈ r.bounds, P w) → P (.range r)) (w : Wire) : P w := by
  refine @Wire.rec P (fun items => ∀ w ∈ items, P w) (fun r => ∀ w ∈ r.bounds, P w)
    (fun b => ∀ w ∈ b.values, P w) null scalar array record range ?_ ?_ ?_ ?_ ?_ ?_ ?_ w <;>
    simp_all [Range.bounds, Bound.values, or_imp]

end TypedSql

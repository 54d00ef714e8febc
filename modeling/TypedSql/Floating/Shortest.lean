import TypedSql.Floating.Format

/-! The shortest decimal that reads back as a given binary number, found on ever finer decimal grids. -/
namespace TypedSql.Floating

/-- The number `digits * 10 ^ exponent`. -/
structure Decimal where
  digits : Nat
  exponent : Int
  deriving DecidableEq, Repr

/-- Which of two equally near decimals is taken. -/
inductive Tie where
  | up
  | even
  deriving DecidableEq, Repr

/-- The reals that round to `middle / 4 * 2 ^ (exponent + 2)`, in quarters of the last place. -/
structure Interval where
  low : Nat
  middle : Nat
  high : Nat
  exponent : Int
  closed : Bool
  deriving DecidableEq, Repr

namespace Interval

/-- Half a place to both sides, a quarter below where the numbers below lie twice as dense; the ends
belong to it when `m` is even. -/
def around (f : Format) (m : Nat) (q : Int) : Interval :=
  ⟨4 * m - (if f.narrowBelow m q then 1 else 2), 4 * m, 4 * m + 2, q - 2, m % 2 = 0⟩

variable (i : Interval)

/-- A quarter place over the grid width `10 ^ k`, as a ratio. -/
def scale (k : Int) : Nat × Nat :=
  (Nat.pow 2 i.exponent.toNat * Nat.pow 10 (-k).toNat, Nat.pow 2 (-i.exponent).toNat * Nat.pow 10 k.toNat)

/-- Whether `c * 10 ^ k` rounds to the middle. -/
def contains (c : Nat) (k : Int) : Bool :=
  let (a, b) := i.scale k
  if i.closed then i.low * a ≤ c * b && c * b ≤ i.high * a
  else i.low * a < c * b && c * b < i.high * a

/-- The point of the grid of width `10 ^ k` that rounds to the middle and lies nearest to it: one of
the middle's two neighbours on that grid. -/
def onGrid (tie : Tie) (k : Int) : Option Nat :=
  let (a, b) := i.scale k
  let below := i.middle * a / b
  let left := i.middle * a - below * b
  let right := (below + 1) * b - i.middle * a
  match i.contains below k, i.contains (below + 1) k with
  | true, true =>
    if left < right then some below
    else if right < left then some (below + 1)
    else match tie with
      | .up => some (below + 1)
      | .even => some (below + below % 2)
  | true, false => some below
  | false, true => some (below + 1)
  | false, false => none

/-- The first hit on the grids of width `10 ^ k`, `10 ^ (k - 1)` and so on. -/
def search (tie : Tie) : Nat → Int → Decimal
  | 0, k => ⟨i.middle * (i.scale k).1 / (i.scale k).2, k⟩
  | steps + 1, k =>
    match i.onGrid tie k with
    | some c => ⟨c, k⟩
    | none => search tie steps (k - 1)

end Interval

/-- The decimal with the fewest digits that rounds to `m * 2 ^ q`, and the nearest of those. The
coarsest grid is wider than the number; seventeen digits always suffice. -/
def shortest (f : Format) (tie : Tie) (m : Nat) (q : Int) : Decimal :=
  let binaryDigits : Int := m.log2 + 1 + q
  (Interval.around f m q).search tie 24 (binaryDigits * 30103 / 100000 + 1)

end TypedSql.Floating

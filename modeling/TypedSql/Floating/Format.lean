/-! Binary interchange formats: bit patterns, the numbers they stand for, and exact rounding to them. -/
namespace TypedSql.Floating

/-- A binary interchange format, given by the bits that hold the fraction and the exponent. -/
structure Format where
  fractionBits : Nat
  exponentBits : Nat
  deriving DecidableEq, Repr

/-- What a bit pattern stands for, its sign aside: `finite m q` is `m * Nat.pow 2 q`. -/
inductive Magnitude where
  | finite (m : Nat) (q : Int)
  | infinite
  | nan
  deriving DecidableEq, Repr

/-- The numerator and denominator of `m * 2 ^ q`. -/
def dyadicRatio (m : Nat) (q : Int) : Nat × Nat := (m * Nat.pow 2 q.toNat, Nat.pow 2 (-q).toNat)

namespace Format

def single : Format := ⟨23, 8⟩
def double : Format := ⟨52, 11⟩

variable (f : Format)

/-- The exponent of the least positive number. -/
def leastExponent : Int := 2 - Nat.pow 2 (f.exponentBits - 1) - f.fractionBits

/-- The exponent field of infinities and NaNs. -/
def topField : Nat := Nat.pow 2 f.exponentBits - 1

def infinityBits : Nat := f.topField * Nat.pow 2 f.fractionBits
def signBit : Nat := Nat.pow 2 (f.fractionBits + f.exponentBits)
/-- The fraction bit that tells a quiet NaN from a signalling one. -/
def quietBit : Nat := Nat.pow 2 (f.fractionBits - 1)

def isNegative (bits : Nat) : Bool := f.signBit ≤ bits

def fraction (bits : Nat) : Nat := bits % Nat.pow 2 f.fractionBits
def exponentField (bits : Nat) : Nat := bits / Nat.pow 2 f.fractionBits % Nat.pow 2 f.exponentBits

/-- Reads the fraction and exponent fields; the lowest exponent field has no hidden bit. -/
def magnitude (bits : Nat) : Magnitude :=
  if f.exponentField bits = f.topField then
    if f.fraction bits = 0 then .infinite else .nan
  else if f.exponentField bits = 0 then .finite (f.fraction bits) f.leastExponent
  else .finite (f.fraction bits + Nat.pow 2 f.fractionBits) (f.leastExponent + f.exponentField bits - 1)

/-- Whether the neighbour below `m * 2 ^ q` lies half as far away as the neighbour above. -/
def narrowBelow (m : Nat) (q : Int) : Bool := m = Nat.pow 2 f.fractionBits && f.leastExponent < q

/-- The quotient rounded to the nearest integer, a half to the even neighbour. -/
def roundHalfEven (num den : Nat) : Nat :=
  let quotient := num / den
  let rest := 2 * (num % den)
  if rest < den then quotient
  else if den < rest then quotient + 1
  else quotient + quotient % 2

/-- The exponent at which `num / den` has one bit more than the fraction, if the format has it. -/
def scaleOf (num den : Nat) : Int :=
  let high : Int := (num.log2 : Int) - den.log2
  let whole := if num * Nat.pow 2 (-high).toNat < den * Nat.pow 2 high.toNat then high - 1 else high
  max (whole - f.fractionBits) f.leastExponent

/-- The bits of the number nearest to `num / den`; what is too large becomes infinite. -/
def roundRatio (num den : Nat) : Nat :=
  if num = 0 then 0
  else
    let q := f.scaleOf num den
    let m := roundHalfEven (num * Nat.pow 2 (-q).toNat) (den * Nat.pow 2 q.toNat)
    min ((q - f.leastExponent).toNat * Nat.pow 2 f.fractionBits + m) f.infinityBits

end Format
end TypedSql.Floating

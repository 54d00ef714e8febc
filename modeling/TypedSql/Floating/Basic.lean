import TypedSql.Floating.Format

/-! Single and double precision numbers as bit patterns, with the conversions between them. -/
namespace TypedSql.Floating

/-- A single precision number. -/
structure Single where
  bits : UInt32
  deriving DecidableEq, Repr

/-- A double precision number. -/
structure Double where
  bits : UInt64
  deriving DecidableEq, Repr

/-- Carries a pattern of one format to another: NaNs become quiet and keep their leading fraction
bits, finite numbers are rounded to the nearest. -/
def convert (source target : Format) (bits : Nat) : Nat :=
  let body := match source.magnitude bits with
    | .nan =>
      let fraction := source.fraction bits * Nat.pow 2 target.fractionBits / Nat.pow 2 source.fractionBits
      target.infinityBits + (fraction ||| target.quietBit)
    | .infinite => target.infinityBits
    | .finite m q => let (num, den) := dyadicRatio m q; target.roundRatio num den
  if source.isNegative bits then target.signBit + body else body

/-- Equality of numbers: zeros are equal whatever their sign, a NaN equals nothing. -/
def sameNumber (f : Format) (a b : Nat) : Bool :=
  match f.magnitude a, f.magnitude b with
  | .nan, _ | _, .nan => false
  | .finite 0 _, .finite 0 _ => true
  | _, _ => a = b

namespace Single

def magnitude (x : Single) : Magnitude := Format.single.magnitude x.bits.toNat
def isNegative (x : Single) : Bool := Format.single.isNegative x.bits.toNat
def equals (x y : Single) : Bool := sameNumber .single x.bits.toNat y.bits.toNat

/-- The same number in double precision. -/
def toDouble (x : Single) : Double := ⟨(convert .single .double x.bits.toNat).toUInt64⟩

end Single

namespace Double

def magnitude (x : Double) : Magnitude := Format.double.magnitude x.bits.toNat
def isNegative (x : Double) : Bool := Format.double.isNegative x.bits.toNat
def equals (x y : Double) : Bool := sameNumber .double x.bits.toNat y.bits.toNat

/-- The nearest number in single precision. -/
def toSingle (x : Double) : Single := ⟨(convert .double .single x.bits.toNat).toUInt32⟩

/-- The number nearest to `num / den`. -/
def ofRatio (num den : Nat) : Double := ⟨(Format.double.roundRatio num den).toUInt64⟩

def neg (x : Double) : Double := ⟨x.bits ^^^ Format.double.signBit.toUInt64⟩

def isInfinite (x : Double) : Bool := x.magnitude = .infinite

end Double
end TypedSql.Floating

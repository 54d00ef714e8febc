import TypedSql.Floating.Basic
import TypedSql.Floating.Shortest

/-! Decimal text of binary numbers: always positional for SQL values, with an exponent in documents. -/
namespace TypedSql.Floating

namespace Decimal

/-- Positional notation, with no point for a whole number. -/
def positional (d : Decimal) : String :=
  let digits := Nat.toDigits 10 d.digits
  if 0 ≤ d.exponent then String.ofList (digits ++ List.replicate d.exponent.toNat '0')
  else
    let places := (-d.exponent).toNat
    let padded := List.replicate (places + 1 - digits.length) '0' ++ digits
    let whole := padded.length - places
    String.ofList (padded.take whole ++ '.' :: padded.drop whole)

/-- One digit before the point and the others behind it, with the sign of the exponent. -/
def scientific (d : Decimal) : String :=
  let digits := Nat.toDigits 10 d.digits
  let rest := digits.drop 1
  let mantissa := digits.take 1 ++ if rest.isEmpty then [] else '.' :: rest
  let exponent := d.exponent + rest.length
  String.ofList mantissa ++ (if 0 ≤ exponent then "e+" else "e") ++ toString exponent

/-- Documents write a number positionally, with a digit after the point, when its point falls less
than five places before its digits and at most sixteen after their start; else with an exponent. -/
def documentText (d : Decimal) : String :=
  let point := d.exponent + (Nat.toDigits 10 d.digits).length
  if 0 ≤ d.exponent && point ≤ 16 then d.positional ++ ".0"
  else if -5 < point && point ≤ 16 then d.positional
  else d.scientific

end Decimal

/-- Shortest digits in positional notation, a tie between two shortest decimals going up. -/
def plainText (f : Format) (negative : Bool) (x : Magnitude) : String :=
  let sign := if negative then "-" else ""
  match x with
  | .nan => "NaN"
  | .infinite => sign ++ "inf"
  | .finite 0 _ => sign ++ "0"
  | .finite m q => sign ++ (shortest f .up m q).positional

def Single.plain (x : Single) : String := plainText .single x.isNegative x.magnitude
def Double.plain (x : Double) : String := plainText .double x.isNegative x.magnitude

/-- Document text of a finite number, a tie between two shortest decimals going to the even one. -/
def Double.documentText (x : Double) : String :=
  let sign := if x.isNegative then "-" else ""
  match x.magnitude with
  | .finite 0 _ => sign ++ "0.0"
  | .finite m q => sign ++ (shortest .double .even m q).documentText
  | .infinite | .nan => "null"

end TypedSql.Floating

import TypedSql.Json.Basic
import TypedSql.Json.Fault
import TypedSql.Json.Mark

/-! Numbers of documents read from their text: exact 64-bit integers, and doubles scaled by powers of ten. -/
namespace TypedSql.JsonNumber
open Floating Json

/-- A number and what follows it, or where reading stops. -/
abbrev Reading := Except Stop (JsonNumber × List UInt8)

/-- One more than the greatest significand. -/
def limit : Nat := Nat.pow 2 64

/-- Appends digits to a significand while it fits; gives how many were appended and what is left. -/
def append (significand taken : Nat) : List UInt8 → Nat × Nat × List UInt8
  | [] => (significand, taken, [])
  | b :: rest =>
    if Mark.isDigit b && significand * 10 + Mark.digit b < limit then
      append (significand * 10 + Mark.digit b) (taken + 1) rest
    else (significand, taken, b :: rest)

/-- A product or quotient of doubles, rounded once. -/
def combine (x y : Double) (divide : Bool) : Double :=
  match x.magnitude, y.magnitude with
  | .finite m p, .finite n q =>
    let (a, b) := dyadicRatio m p
    let (c, d) := dyadicRatio n q
    if divide then .ofRatio (a * d) (b * c) else .ofRatio (a * c) (b * d)
  | _, _ => x

/-- The greatest exponent of a power of ten that is a finite double. -/
def greatestPower : Nat := 308

/-- A double times a power of ten, by one multiplication or division; very small results take several
divisions, and a result that is too large is refused. -/
def scale : Nat → Double → Int → Option Double
  | 0, x, _ => some x
  | steps + 1, x, e =>
    if e.natAbs ≤ greatestPower then
      let y := combine x (.ofRatio (Nat.pow 10 e.natAbs) 1) (e < 0)
      if y.isInfinite then none else some y
    else if x.bits = 0 then some x
    else if 0 ≤ e then none
    else scale steps (combine x (.ofRatio (Nat.pow 10 greatestPower) 1) true) (e + greatestPower)

/-- The double for a significand and a decimal exponent, read up to `rest`. No significand survives
three divisions. -/
def ofScaled (negative : Bool) (significand : Nat) (e : Int) (rest : List UInt8) : Reading :=
  match scale 4 (.ofRatio significand 1) e with
  | some x => .ok (.decimal (if negative then x.neg else x), rest)
  | none => .error (.behind .numberRange rest)

/-- The digits of an exponent behind `n`, up to one with which it no longer fits in 32 bits. -/
def exponentDigits (n : Nat) : List UInt8 → Option Nat × List UInt8
  | [] => (some n, [])
  | b :: rest =>
    if Mark.isDigit b then
      let n' := n * 10 + Mark.digit b
      if n' < Nat.pow 2 31 then exponentDigits n' rest else (none, rest)
    else (some n, b :: rest)

/-- Reads what follows the exponent mark. An exponent beyond 32 bits makes zero or is refused. -/
def readExponent (negative : Bool) (significand : Nat) (e : Int) (text : List UInt8) : Reading :=
  let (down, digits) := match text with
    | Mark.plus :: rest => (false, rest)
    | Mark.minus :: rest => (true, rest)
    | _ => (false, text)
  match digits with
  | [] => .error (.behind .missingValue [])
  | b :: _ =>
    if !Mark.isDigit b then .error (.on .badNumber digits)
    else match exponentDigits 0 digits with
      | (some n, rest) => ofScaled negative significand (if down then e - n else e + n) rest
      | (none, rest) =>
        if significand ≠ 0 && !down then .error (.behind .numberRange rest)
        else ofScaled negative 0 0 (rest.dropWhile Mark.isDigit)

/-- Reads an exponent if one follows. -/
def readScaled (negative : Bool) (significand : Nat) (e : Int) (text : List UInt8) : Reading :=
  match text with
  | Mark.smallE :: rest | Mark.capitalE :: rest => readExponent negative significand e rest
  | _ => ofScaled negative significand e text

/-- Reads what follows the point; digits beyond what the significand holds are dropped. -/
def readFraction (negative : Bool) (significand : Nat) (e : Int) (text : List UInt8) : Reading :=
  match text with
  | [] => .error (.behind .missingValue [])
  | b :: _ =>
    if !Mark.isDigit b then .error (.on .badNumber text)
    else
      let (significand', taken, rest) := append significand 0 text
      readScaled negative significand' (e - taken) (rest.dropWhile Mark.isDigit)

/-- Reads what follows an integer part without point or exponent as an integer where it fits. -/
def readWhole (negative : Bool) (significand : Nat) (text : List UInt8) : Reading :=
  match text with
  | Mark.point :: rest => readFraction negative significand 0 rest
  | Mark.smallE :: rest | Mark.capitalE :: rest => readExponent negative significand 0 rest
  | _ =>
    if !negative then .ok (.integer significand, text)
    else if 0 < significand && significand ≤ Nat.pow 2 63 then .ok (.integer (-significand), text)
    else ofScaled true significand 0 text

/-- Reads the number a text starts with, its sign already read; the rest follows it. Digits beyond
what the significand holds count as zeros. -/
def read (negative : Bool) (text : List UInt8) : Reading :=
  match text with
  | [] => .error (.behind .missingValue [])
  | Mark.zero :: rest =>
    if (rest.head?.map Mark.isDigit).getD false then .error (.on .badNumber rest)
    else readWhole negative 0 rest
  | b :: _ =>
    if !Mark.isDigit b then .error (.on .badNumber text)
    else
      let (significand, _, rest) := append 0 0 text
      let rest' := rest.dropWhile Mark.isDigit
      let skipped : Int := rest.length - rest'.length
      if skipped = 0 then readWhole negative significand rest
      else match rest' with
        | Mark.point :: rest'' => readFraction negative significand skipped rest''
        | _ => readScaled negative significand skipped rest'

end TypedSql.JsonNumber

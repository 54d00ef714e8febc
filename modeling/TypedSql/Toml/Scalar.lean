import TypedSql.Floating.Basic
import TypedSql.Calendar.Date
import TypedSql.Setting.Basic

/-! Scalars of configuration text that are not strings: numbers, flags and points in time. -/
namespace TypedSql.Toml

/-- The parts of a text between marks, without the marks. -/
def splitAtMarks (isMark : Char → Bool) : List Char → List (List Char)
  | [] => [[]]
  | c :: rest =>
    if isMark c then [] :: splitAtMarks isMark rest
    else match splitAtMarks isMark rest with
      | part :: parts => (c :: part) :: parts
      | [] => [[c]]

/-- The digits of a number in a base, given in groups with one underscore between them. -/
private def digitGroups? (base : Nat) (text : List Char) : Option (List Nat) := do
  let groups := splitAtMarks (· = '_') text
  if groups.any List.isEmpty then none
  else groups.flatten.mapM fun c => do
    let upper := c.toUpper
    let digit := if upper.isDigit then upper.toNat - '0'.toNat else upper.toNat - 'A'.toNat + 10
    if (upper.isDigit || ('A' ≤ upper && upper ≤ 'F')) && digit < base then some digit else none

private def ofDigits (base : Nat) (digits : List Nat) : Nat :=
  digits.foldl (fun n d => n * base + d) 0

/-- A sign, and what follows it. -/
private def splitSign : List Char → Bool × List Char
  | '+' :: rest => (false, rest)
  | '-' :: rest => (true, rest)
  | text => (false, text)

/-- The digits of a decimal integer without sign: no zero before other digits. -/
private def wholeDigits? (text : List Char) : Option (List Nat) := do
  let digits ← digitGroups? 10 text
  if 1 < digits.length && digits.head? = some 0 then none else some digits

/-- An integer of 64 bits, decimal with an optional sign or in another base without one. -/
def integer? (text : List Char) : Option Int := do
  let n : Int ← match text with
    | '0' :: 'x' :: digits => (digitGroups? 16 digits).map fun ds => (ofDigits 16 ds : Int)
    | '0' :: 'o' :: digits => (digitGroups? 8 digits).map fun ds => (ofDigits 8 ds : Int)
    | '0' :: 'b' :: digits => (digitGroups? 2 digits).map fun ds => (ofDigits 2 ds : Int)
    | _ =>
      let (negative, digits) := splitSign text
      (wholeDigits? digits).map fun ds => if negative then -(ofDigits 10 ds : Int) else ofDigits 10 ds
  if -(Nat.pow 2 63 : Int) ≤ n && n < Nat.pow 2 63 then some n else none

/-- Whether digits scaled by a power of ten round to infinity. -/
private def overflows (digits : List Nat) (exponent : Int) : Bool :=
  let significant := digits.dropWhile (· = 0)
  let magnitude : Int := significant.length + exponent
  if significant.isEmpty || magnitude < 300 then false
  else if 400 < magnitude then true
  else
    let n := ofDigits 10 significant
    let x : Floating.Double :=
      if 0 ≤ exponent then .ofRatio (n * Nat.pow 10 exponent.natAbs) 1
      else .ofRatio n (Nat.pow 10 exponent.natAbs)
    x.isInfinite

/-- Whether a text is a fraction: an integer with decimal places, an exponent or both, or one of the
special values. No positive one may be too large. -/
def isFraction (text : List Char) : Bool := Option.isSome do
  let (negative, body) := splitSign text
  if body = ['i', 'n', 'f'] || body = ['n', 'a', 'n'] then some ()
  else
    let (mantissa, exponent) ← match splitAtMarks (fun c => c = 'e' || c = 'E') body with
      | [mantissa] => some (mantissa, none)
      | [mantissa, exponent] => some (mantissa, some exponent)
      | _ => none
    let (whole, places) ← match splitAtMarks (· = '.') mantissa with
      | [whole] => if exponent.isSome then some (whole, none) else none
      | [whole, places] => some (whole, some places)
      | _ => none
    let whole ← wholeDigits? whole
    let places ← match places with
      | some places => digitGroups? 10 places
      | none => some []
    let exponent : Int ← match exponent with
      | some exponent =>
        let (down, digits) := splitSign exponent
        (digitGroups? 10 digits).map fun ds => if down then -(ofDigits 10 ds : Int) else ofDigits 10 ds
      | none => some 0
    if !negative && overflows (whole ++ places) (exponent - places.length) then none else some ()

/-- The number that a run of exactly so many digits gives. -/
private def fixed? (count : Nat) (text : List Char) : Option Nat :=
  if text.length = count && text.all Char.isDigit then
    some (text.foldl (fun n c => n * 10 + (c.toNat - '0'.toNat)) 0)
  else none

/-- Whether a text is a day of the calendar, with four digits for the year. -/
def isDate (text : List Char) : Bool := Option.isSome do
  match splitAtMarks (· = '-') text with
  | [year, month, day] =>
    let (y, m, d) := (← fixed? 4 year, ← fixed? 2 month, ← fixed? 2 day)
    if 1 ≤ m && m ≤ 12 && 1 ≤ d && d ≤ Calendar.Date.daysInMonth y m then some () else none
  | _ => none

/-- Whether a text is a time of day: hours, minutes, seconds up to a leap second, decimal places. -/
def isTime (text : List Char) : Bool := Option.isSome do
  match splitAtMarks (· = ':') text with
  | [hour, minute, second] =>
    let (second, places) ← match splitAtMarks (· = '.') second with
      | [second] => some (second, ['0'])
      | [second, places] => some (second, places)
      | _ => none
    let (h, m, s) := (← fixed? 2 hour, ← fixed? 2 minute, ← fixed? 2 second)
    if h ≤ 23 && m ≤ 59 && s ≤ 60 && !places.isEmpty && places.all Char.isDigit then some () else none
  | _ => none

/-- Whether a text is an offset from universal time after its sign. -/
private def isOffset (text : List Char) : Bool := Option.isSome do
  match splitAtMarks (· = ':') text with
  | [hour, minute] =>
    let (h, m) := (← fixed? 2 hour, ← fixed? 2 minute)
    if h ≤ 23 && m ≤ 59 then some () else none
  | _ => none

/-- Whether a text is a time of day with an optional offset. -/
def isZonedTime (text : List Char) : Bool :=
  match text.getLast? with
  | some 'Z' | some 'z' => isTime text.dropLast
  | _ =>
    let isSign := fun c => c = '+' || c = '-'
    match text.dropWhile (!isSign ·) with
    | [] => isTime text
    | _ :: offset => isTime (text.takeWhile (!isSign ·)) && isOffset offset

/-- Whether a text is a day and a time with a letter between them. -/
private def isDateTime (text : List Char) : Bool :=
  let mark := text[10]?
  (mark = some 'T' || mark = some 't') && isDate (text.take 10) && isZonedTime (text.drop 11)

private def isScalarChar (c : Char) : Bool :=
  c.isAlphanum || c = '_' || c = '+' || c = '-' || c = '.' || c = ':'

/-- The scalar a text starts with. A day may be followed by a space and a time. -/
def readScalar (text : List Char) : Option (Setting × List Char) :=
  let token := text.takeWhile isScalarChar
  let rest := text.dropWhile isScalarChar
  if token = ['t', 'r', 'u', 'e'] then some (.flag true, rest)
  else if token = ['f', 'a', 'l', 's', 'e'] then some (.flag false, rest)
  else if isDate token then
    match rest with
    | ' ' :: time =>
      let clock := time.takeWhile isScalarChar
      if clock.isEmpty then some (.other, rest)
      else if isZonedTime clock then some (.other, time.dropWhile isScalarChar)
      else none
    | _ => some (.other, rest)
  else if isDateTime token || isTime token || isFraction token then some (.other, rest)
  else (integer? token).map fun n => (.integer n, rest)

end TypedSql.Toml

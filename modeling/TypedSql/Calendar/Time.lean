import TypedSql.Text.Hex

/-! Times of day to the nanosecond, leap seconds included. -/
namespace TypedSql.Calendar

/-- A time of day. During a leap second `nano` runs from 1,000,000,000 on. -/
structure Time where
  hour : Nat
  minute : Nat
  second : Nat
  nano : Nat
  deriving DecidableEq, Repr

namespace Time

def microsPerDay : Int := 86400000000

/-- Nanoseconds since midnight. -/
def toNanos (t : Time) : Nat := ((t.hour * 60 + t.minute) * 60 + t.second) * 1000000000 + t.nano

/-- The time a number of microseconds after midnight, days left aside. -/
def ofMicros (micros : Int) : Time :=
  let n := (micros % microsPerDay).toNat
  let seconds := n / 1000000
  ⟨seconds / 3600, seconds / 60 % 60, seconds % 60, n % 1000000 * 1000⟩

/-- A point and as few groups of three digits as show the nanoseconds exactly. -/
def fractionText (nano : Nat) : String :=
  if nano = 0 then ""
  else if nano % 1000000 = 0 then "." ++ Text.padded 10 3 (nano / 1000000)
  else if nano % 1000 = 0 then "." ++ Text.padded 10 6 (nano / 1000)
  else "." ++ Text.padded 10 9 nano

/-- Hours, minutes and seconds with a fraction; a leap second is second 60. -/
def text (t : Time) : String :=
  Text.padded 10 2 t.hour ++ ":" ++ Text.padded 10 2 t.minute ++ ":" ++
    Text.padded 10 2 (t.second + t.nano / 1000000000) ++ fractionText (t.nano % 1000000000)

end Time
end TypedSql.Calendar

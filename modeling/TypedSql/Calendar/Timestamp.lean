import TypedSql.Calendar.Date
import TypedSql.Calendar.Time

/-! Points in time as a date and a time of day, counted in microseconds from the epoch. -/
namespace TypedSql.Calendar

structure Timestamp where
  date : Date
  time : Time
  deriving DecidableEq, Repr

namespace Timestamp

/-- Microseconds since the epoch's midnight, cut off towards zero. -/
def toMicros (t : Timestamp) : Int :=
  (t.date.toDays * (Time.microsPerDay * 1000) + t.time.toNanos).tdiv 1000

/-- The point a number of microseconds after the epoch's midnight, if its date is in range. -/
def ofMicros? (micros : Int) : Option Timestamp := do
  let date ← Date.ofDays? (micros / Time.microsPerDay)
  return ⟨date, Time.ofMicros micros⟩

def text (t : Timestamp) : String := t.date.text ++ " " ++ t.time.text

def zonedText (t : Timestamp) : String := t.text ++ " UTC"

/-- The interchange form with the offset written out. -/
def offsetText (t : Timestamp) : String := t.date.text ++ "T" ++ t.time.text ++ "+00:00"

end Timestamp
end TypedSql.Calendar

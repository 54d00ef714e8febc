import TypedSql.Text.Hex

/-! Dates of the proleptic Gregorian calendar, counted in days and written year first. -/
namespace TypedSql.Calendar

structure Date where
  year : Int
  month : Nat
  day : Nat
  deriving DecidableEq, Repr

namespace Date

/-- How many days a month has. -/
def daysInMonth (year : Int) (month : Nat) : Nat :=
  if month = 2 then
    if year % 4 = 0 && (year % 100 ≠ 0 || year % 400 = 0) then 29 else 28
  else if month = 4 || month = 6 || month = 9 || month = 11 then 30
  else 31

/-- Days since 1 March of the year 0, the year taken to begin in March so that a leap day ends it. -/
def marchDays (d : Date) : Int :=
  let year := if d.month ≤ 2 then d.year - 1 else d.year
  let month := (d.month + 9) % 12
  365 * year + year / 4 - year / 100 + year / 400 + ((153 * month + 2) / 5 : Nat) + d.day - 1

/-- The date a number of days after 1 March of the year 0: whole spans of 400 years first, then the
year, month and day in what is left. -/
def ofMarchDays (days : Int) : Date :=
  let era := days / 146097
  let rest := (days % 146097).toNat
  let year := (rest - rest / 1460 + rest / 36524 - rest / 146096) / 365
  let dayOfYear := rest - (365 * year + year / 4 - year / 100)
  let month := (5 * dayOfYear + 2) / 153
  let march : Int := 400 * era + year
  ⟨if 10 ≤ month then march + 1 else march, (month + 2) % 12 + 1,
    dayOfYear - (153 * month + 2) / 5 + 1⟩

/-- The day that stored dates are counted from. -/
def epoch : Date := ⟨2000, 1, 1⟩

/-- Days since the epoch. -/
def toDays (d : Date) : Int := d.marchDays - epoch.marchDays

/-- The date a number of days after the epoch. -/
def ofDays (days : Int) : Date := ofMarchDays (days + epoch.marchDays)

def earliest : Date := ⟨-262143, 1, 1⟩
def latest : Date := ⟨262142, 12, 31⟩

/-- The date a number of days after the epoch, between the earliest and the latest. -/
def ofDays? (days : Int) : Option Date :=
  if earliest.toDays ≤ days && days ≤ latest.toDays then some (ofDays days) else none

/-- Four digits for the years 0 to 9999; other years have a sign and at least four digits. -/
def yearText (year : Int) : String :=
  let digits := Text.padded 10 4 year.natAbs
  if 0 ≤ year && year ≤ 9999 then digits else (if year < 0 then "-" else "+") ++ digits

def text (d : Date) : String :=
  yearText d.year ++ "-" ++ Text.padded 10 2 d.month ++ "-" ++ Text.padded 10 2 d.day

end Date
end TypedSql.Calendar

import TypedSql.Protocol.Reader

/-! Spans of time in months, days and microseconds. -/
namespace TypedSql.Protocol.Interval

/-- Hours, minutes and seconds of a count of microseconds, with six places where they are needed. -/
def clockText (micros : Nat) : String :=
  let seconds := micros / 1000000
  let fraction := micros % 1000000
  Text.padded 10 2 (seconds / 3600) ++ ":" ++ Text.padded 10 2 (seconds / 60 % 60) ++ ":" ++
    Text.padded 10 2 (seconds % 60) ++ if fraction = 0 then "" else "." ++ Text.padded 10 6 fraction

/-- The sign of the microseconds covers the whole time of day. -/
def partsText (months days micros : Int) : String :=
  s!"{months} mons {days} days " ++ (if micros < 0 then "-" else "") ++ clockText micros.natAbs

/-- The text of an interval's bytes: microseconds first, then days, then months. -/
def text (raw : List UInt8) : Except CodecProblem String :=
  if raw.length < 16 then .error .shortInterval
  else do
    let (micros, rest) ← readSigned 8 raw
    let (days, rest) ← readSigned 4 rest
    let (months, _) ← readSigned 4 rest
    return partsText months days micros

end TypedSql.Protocol.Interval

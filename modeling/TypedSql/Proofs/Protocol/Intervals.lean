import TypedSql.Protocol.Interval
import TypedSql.Proofs.Protocol.Numbers

/-! Spans of time read from their text: months, days and a clock that runs on behind the hour 23, with one sign
for hours, minutes and seconds together. -/
namespace TypedSql.Protocol.Interval
open Text

/-- A span of time in its three parts, which are not converted into each other. -/
structure Span where
  months : Int
  days : Int
  micros : Int
  deriving DecidableEq, Repr

/-- A number in decimal digits. -/
def readNat? (s : List Char) : Option Nat :=
  if s ≠ [] ∧ s.all Char.isDigit then some (Nat.ofDigitChars 10 s 0) else none

/-- What is read behind a minus sign counts below zero. -/
def readSigned? (read : List Char → Option Nat) : List Char → Option Int
  | '-' :: s => (read s).map fun n : Nat => -(n : Int)
  | s => (read s).map fun n : Nat => (n : Int)

/-- Minutes or seconds in two digits. -/
def readSixty? (s : List Char) : Option Nat :=
  if s.length = 2 then (readNat? s).filter (· < 60) else none

/-- The microseconds of seconds, which may have six digits behind a point. -/
def readSeconds? (s : List Char) : Option Nat :=
  match s.splitOn '.' with
  | [seconds] => (readSixty? seconds).map (· * 1000000)
  | [seconds, fraction] => do
    if fraction.length = 6 then return (← readSixty? seconds) * 1000000 + (← readNat? fraction) else none
  | _ => none

/-- The microseconds of hours, minutes and seconds. -/
def readClock? (s : List Char) : Option Nat :=
  match s.splitOn ':' with
  | [hours, minutes, seconds] => do
    return ((← readNat? hours) * 60 + (← readSixty? minutes)) * 60000000 + (← readSeconds? seconds)
  | _ => none

/-- The span that a text tells. -/
def Span.read? (text : List Char) : Option Span :=
  match text.splitOn ' ' with
  | [months, unit, days, unit', clock] =>
    if unit = "mons".toList ∧ unit' = "days".toList then do
      return ⟨← readSigned? readNat? months, ← readSigned? readNat? days, ← readSigned? readClock? clock⟩
    else none
  | _ => none

/-- The distance of a count from zero, in a word. -/
def magnitude (micros : Int64) : UInt64 := if micros < 0 then 0 - micros.toUInt64 else micros.toUInt64

/-- The clock of a count in a word, with all that is computed kept in words. -/
def clockOfWord (micros : UInt64) : String :=
  let seconds := micros / 1000000
  let fraction := micros % 1000000
  padded 10 2 (seconds / 3600).toNat ++ ":" ++ padded 10 2 (seconds / 60 % 60).toNat ++ ":" ++
    padded 10 2 (seconds % 60).toNat ++ if fraction = 0 then "" else "." ++ padded 10 6 fraction.toNat

section Words

/-- The least number has a distance from zero that no signed word holds, but a word without a sign does. -/
theorem magnitude_toNat (micros : Int64) : (magnitude micros).toNat = micros.toInt.natAbs := by
  have hword : micros.toInt = (micros.toUInt64.toNat : Int).bmod (2 ^ 64) :=
    BitVec.toInt_eq_toNat_bmod micros.toBitVec
  have hbound : micros.toUInt64.toNat < 2 ^ 64 := micros.toUInt64.toNat_lt
  have hsign : micros < 0 ↔ micros.toInt < 0 := Int64.lt_iff_toInt_lt
  rw [Int.bmod_def] at hword
  rw [magnitude]
  split_ifs with hneg <;> rw [hsign] at hneg
  · rw [UInt64.toNat_sub, UInt64.toNat_zero]
    omega
  · omega

theorem clockOfWord_eq (micros : UInt64) : clockOfWord micros = clockText micros.toNat := by
  have hzero : micros % 1000000 = 0 ↔ micros.toNat % 1000000 = 0 := by
    rw [← UInt64.toNat_inj]
    simp
  simp [clockOfWord, clockText, hzero]

end Words

section Digits

theorem padded_toList (width n : Nat) : (padded 10 width n).toList =
    List.replicate (width - (Nat.toDigits 10 n).length) '0' ++ Nat.toDigits 10 n := String.toList_ofList

theorem padded_digits (width n : Nat) : Digits (padded 10 width n).toList := by
  rw [padded_toList]
  exact .append (.replicate _) (.toDigits n)

theorem padded_plain {c : Char} (hc : c.isDigit = false) (width n : Nat) : c ∉ (padded 10 width n).toList :=
  fun hmem => absurd (padded_digits width n c hmem) (by simp [hc])

theorem padded_length {width n : Nat} (hwidth : 0 < width) (h : n < 10 ^ width) :
    (padded 10 width n).toList.length = width := by
  have hdigits : (Nat.toDigits 10 n).length ≤ width := (Nat.length_toDigits_le_iff (by decide) hwidth).mpr h
  rw [padded_toList, List.length_append, List.length_replicate]
  omega

theorem readNat?_digits {s : List Char} (hne : s ≠ []) (h : Digits s) :
    readNat? s = some (Nat.ofDigitChars 10 s 0) :=
  if_pos ⟨hne, List.all_eq_true.mpr h⟩

theorem readNat?_padded (width n : Nat) : readNat? (padded 10 width n).toList = some n := by
  have hne : (padded 10 width n).toList ≠ [] := by
    rw [padded_toList]
    exact List.append_ne_nil_of_right_ne_nil _ Nat.toDigits_ne_nil
  have hvalue : Nat.ofDigitChars 10 (padded 10 width n).toList 0 = n := by
    rw [padded_toList, Nat.ofDigitChars_append, Nat.ofDigitChars_replicate_zero, Nat.mul_zero,
      Nat.ofDigitChars_ten_toDigits]
  rw [readNat?_digits hne (padded_digits width n), hvalue]

theorem readSixty?_padded {n : Nat} (h : n < 60) : readSixty? (padded 10 2 n).toList = some n := by
  rw [readSixty?, if_pos (padded_length (by decide) (by omega)), readNat?_padded]
  simp [h]

end Digits

section Clock

variable (micros : Nat)

/-- The seconds of a clock, with their six places where they are needed. -/
def secondsText (micros : Nat) : List Char :=
  (padded 10 2 (micros / 1000000 % 60)).toList ++
    if micros % 1000000 = 0 then [] else '.' :: (padded 10 6 (micros % 1000000)).toList

theorem clockText_toList : (clockText micros).toList =
    [':'].intercalate [(padded 10 2 (micros / 1000000 / 3600)).toList,
      (padded 10 2 (micros / 1000000 / 60 % 60)).toList, secondsText micros] := by
  rw [clockText, secondsText]
  split_ifs <;> simp [List.intercalate, List.intersperse]

theorem secondsText_plain {c : Char} (hdigit : c.isDigit = false) (hpoint : c ≠ '.') : c ∉ secondsText micros := by
  rw [secondsText]
  split_ifs <;> simp [padded_plain hdigit, hpoint]

theorem clockText_plain {c : Char} (hdigit : c.isDigit = false) (hpoint : c ≠ '.') (hcolon : c ≠ ':') :
    c ∉ (clockText micros).toList := by
  rw [clockText_toList]
  simp [List.intercalate, List.intersperse, padded_plain hdigit, hcolon, secondsText_plain micros hdigit hpoint]

theorem readSeconds?_secondsText : readSeconds? (secondsText micros) = some (micros % 60000000) := by
  have hpoint := padded_plain (c := '.') (by decide)
  have hseconds := readSixty?_padded (Nat.mod_lt (micros / 1000000) (by decide : 0 < 60))
  rw [readSeconds?, secondsText]
  split_ifs with hwhole
  · rw [List.append_nil, List.splitOn_eq_singleton (hpoint _ _)]
    simp only [hseconds, Option.map_some, Option.some.injEq]
    omega
  · have hlength : (padded 10 6 (micros % 1000000)).toList.length = 6 :=
      padded_length (by decide) (Nat.mod_lt _ (by decide))
    rw [List.splitOn_append_cons_self_of_not_mem (hpoint _ _), List.splitOn_eq_singleton (hpoint _ _)]
    simp only [hlength, if_true, hseconds, readNat?_padded, Option.bind_eq_bind, Option.bind_some,
      Option.pure_def, Option.some.injEq]
    omega

/-- A clock is read back, however many hours it shows. -/
theorem readClock?_clockText : readClock? (clockText micros).toList = some micros := by
  have hcolon := padded_plain (c := ':') (by decide)
  have hminutes := readSixty?_padded (Nat.mod_lt (micros / 1000000 / 60) (by decide : 0 < 60))
  rw [readClock?, clockText_toList, List.splitOn_intercalate ':'
    (by simp [hcolon, secondsText_plain]) (List.cons_ne_nil _ _)]
  simp only [readNat?_padded, hminutes, readSeconds?_secondsText, Option.bind_eq_bind, Option.bind_some,
    Option.pure_def, Option.some.injEq]
  omega

end Clock

section Signs

variable {read : List Char → Option Nat} {s : List Char}

theorem readSigned?_of_minus_notMem (hminus : '-' ∉ s) :
    readSigned? read s = (read s).map fun n : Nat => (n : Int) := by
  unfold readSigned?
  split
  · exact absurd List.mem_cons_self hminus
  · rfl

/-- A minus sign in front of what is written without one makes it negative. -/
theorem readSigned?_sign {n : Int} (hminus : '-' ∉ s) (h : read s = some n.natAbs) :
    readSigned? read ((if n < 0 then ['-'] else []) ++ s) = some n := by
  split_ifs with hneg
  · rw [List.singleton_append, readSigned?, h, Option.map_some, Option.some.injEq]
    omega
  · rw [List.nil_append, readSigned?_of_minus_notMem hminus, h, Option.map_some, Option.some.injEq]
    omega

theorem readSigned?_int (n : Int) : readSigned? readNat? (toString n).toList = some n := by
  have hread : readNat? (Nat.toDigits 10 n.natAbs) = some n.natAbs := by
    rw [readNat?_digits Nat.toDigits_ne_nil (.toDigits _), Nat.ofDigitChars_ten_toDigits]
  have htext : (toString n).toList = (if n < 0 then ['-'] else []) ++ Nat.toDigits 10 n.natAbs := by
    rw [Numeric.intText]
    split_ifs <;> rfl
  rw [htext, readSigned?_sign (Digits.toDigits _).minus_notMem hread]

/-- A clock with the sign that stands for all of it. -/
theorem readSigned?_clock (micros : Int) : readSigned? readClock?
    ((if micros < 0 then "-" else "") ++ clockText micros.natAbs).toList = some micros := by
  have htext : ((if micros < 0 then "-" else "") ++ clockText micros.natAbs).toList =
      (if micros < 0 then ['-'] else []) ++ (clockText micros.natAbs).toList := by
    rw [String.toList_append]
    split_ifs <;> rfl
  have hminus := clockText_plain micros.natAbs (c := '-') (by decide) (by decide) (by decide)
  rw [htext, readSigned?_sign hminus (readClock?_clockText _)]

theorem int_plain (n : Int) : ' ' ∉ (toString n).toList := by
  have hdigits : ' ' ∉ Nat.toDigits 10 n.natAbs := fun hmem => absurd (Digits.toDigits _ ' ' hmem) (by decide)
  rw [Numeric.intText]
  split_ifs <;> simp [hdigits]

end Signs

namespace Span

/-- The three parts of a text are read on their own, if none of them has a blank. -/
theorem read?_parts {months days clock : List Char} (hmonths : ' ' ∉ months) (hdays : ' ' ∉ days)
    (hclock : ' ' ∉ clock) : read? (months ++ " mons ".toList ++ days ++ " days ".toList ++ clock) = do
      return ⟨← readSigned? readNat? months, ← readSigned? readNat? days, ← readSigned? readClock? clock⟩ := by
  have hparts : months ++ " mons ".toList ++ days ++ " days ".toList ++ clock =
      [' '].intercalate [months, "mons".toList, days, "days".toList, clock] := by
    simp [List.intercalate, List.intersperse]
  rw [read?, hparts, List.splitOn_intercalate ' ' (by simp [hmonths, hdays, hclock]) (List.cons_ne_nil _ _)]
  rfl

/-- What is written of a span is read as that span. -/
theorem read?_partsText (months days micros : Int) :
    read? (partsText months days micros).toList = some ⟨months, days, micros⟩ := by
  have hclock : ' ' ∉ ((if micros < 0 then "-" else "") ++ clockText micros.natAbs).toList := by
    rw [String.toList_append, List.mem_append, not_or]
    refine ⟨?_, clockText_plain _ (by decide) (by decide) (by decide)⟩
    split_ifs <;> decide
  have hparts : (partsText months days micros).toList = (toString months).toList ++ " mons ".toList ++
      (toString days).toList ++ " days ".toList ++
        ((if micros < 0 then "-" else "") ++ clockText micros.natAbs).toList := by
    simp only [partsText, String.toList_append, List.append_assoc]
    rfl
  rw [hparts, read?_parts (int_plain months) (int_plain days) hclock, readSigned?_int, readSigned?_int,
    readSigned?_clock]
  rfl

end Span

section Bytes

variable (micros : Int64) (days months : Int32) (behind : List UInt8)

/-- The bytes of a span, whatever follows them. -/
theorem text_bytes : text (bytesOf 8 micros.toInt ++ bytesOf 4 days.toInt ++ bytesOf 4 months.toInt ++ behind) =
    .ok (partsText months.toInt days.toInt micros.toInt) := by
  have hmicros : Reads (readSigned 8) micros.toInt (bytesOf 8 micros.toInt) := by
    have hlow := micros.le_toInt
    have hhigh := micros.toInt_lt
    exact readSigned_reads (by omega) (by omega)
  have hday (n : Int32) : Reads (readSigned 4) n.toInt (bytesOf 4 n.toInt) := by
    have hlow := n.le_toInt
    have hhigh := n.toInt_lt
    exact readSigned_reads (by omega) (by omega)
  rw [text, if_neg (by simp; omega)]
  simp only [List.append_assoc, hmicros _, hday _ _, ok_bind]
  rfl

/-- Every span has a text that is read as that span, and nothing that is computed on the way to it is too large for
a word: not even the least number of microseconds, whose distance from zero no signed word holds. -/
theorem text_reads_back : ∃ t,
    text (bytesOf 8 micros.toInt ++ bytesOf 4 days.toInt ++ bytesOf 4 months.toInt ++ behind) = .ok t ∧
      Span.read? t.toList = some ⟨months.toInt, days.toInt, micros.toInt⟩ ∧
      (magnitude micros).toNat = micros.toInt.natAbs ∧
      t = s!"{months.toInt} mons {days.toInt} days " ++ (if micros < 0 then "-" else "") ++
        clockOfWord (magnitude micros) := by
  have hsign : micros < 0 ↔ micros.toInt < 0 := Int64.lt_iff_toInt_lt
  refine ⟨_, text_bytes micros days months behind, Span.read?_partsText _ _ _, magnitude_toNat micros, ?_⟩
  rw [partsText, clockOfWord_eq, magnitude_toNat]
  simp only [hsign]

example : text (bytesOf 8 Int64.minValue.toInt ++ bytesOf 4 0 ++ bytesOf 4 (-1)) =
    .ok "-1 mons 0 days -2562047788:00:54.775808" := by decide +kernel

end Bytes

end TypedSql.Protocol.Interval

import Mathlib.Data.Rat.Defs
import Mathlib.Data.List.TakeWhile
import Mathlib.Tactic.Ring

/-! Decimal numbers as texts write them, and what they are worth. -/
namespace TypedSql.Text

/-- A decimal number as a text writes it: the digits before the point and those behind it. -/
structure Decimal where
  negative : Bool
  whole : List Char
  fraction : List Char
  deriving DecidableEq, Repr

def Digits (s : List Char) : Prop := ∀ c ∈ s, c.isDigit = true

namespace Digits

variable {s s' : List Char}

theorem nil : Digits [] := List.forall_mem_nil _

theorem append (h : Digits s) (h' : Digits s') : Digits (s ++ s') := List.forall_mem_append.mpr ⟨h, h'⟩

theorem flatMap {α : Type} {f : α → List Char} {l : List α} (h : ∀ a ∈ l, Digits (f a)) : Digits (l.flatMap f) := by
  intro c hc
  obtain ⟨a, ha, hc⟩ := List.mem_flatMap.mp hc
  exact h a ha c hc

theorem minus_notMem (h : Digits s) : '-' ∉ s := fun hmem => absurd (h _ hmem) (by decide)

theorem toDigits (n : Nat) : Digits (Nat.toDigits 10 n) :=
  fun _ hc => Nat.isDigit_of_mem_toDigits (by decide) (by decide) hc

theorem replicate (n : Nat) : Digits (List.replicate n '0') := by
  intro c hc
  rw [List.eq_of_mem_replicate hc]
  rfl

/-- Digits are less than a power of ten with as many zeros. -/
theorem ofDigitChars_lt (h : Digits s) : Nat.ofDigitChars 10 s 0 < 10 ^ s.length := by
  induction s with
  | nil => simp
  | cons c s ih =>
    obtain ⟨hc, hs⟩ := List.forall_mem_cons.mp h
    have hdigit : c.toNat - '0'.toNat ≤ 9 := by
      have hrange : 48 ≤ c.toNat ∧ c.toNat ≤ 57 := by simpa [Char.isDigit, UInt32.le_iff_toNat_le] using hc
      change c.toNat - 48 ≤ 9
      omega
    have hrest := ih hs
    rw [Nat.ofDigitChars_cons, Nat.ofDigitChars_eq_ofDigitChars_zero, List.length_cons, pow_succ]
    calc 10 ^ s.length * (10 * 0 + (c.toNat - '0'.toNat)) + Nat.ofDigitChars 10 s 0
        ≤ 10 ^ s.length * 9 + Nat.ofDigitChars 10 s 0 := by gcongr; omega
      _ < 10 ^ s.length * 10 := by omega

end Digits

namespace Decimal

/-- The digits behind a point. Where there is no point there are none. -/
def readFraction? : List Char → Option (List Char)
  | [] => some []
  | '.' :: fraction => if fraction ≠ [] ∧ fraction.all Char.isDigit then some fraction else none
  | _ => none

/-- Digits behind a sign or none, and perhaps a point with more digits. -/
def readDigits? (negative : Bool) (digits : List Char) : Option Decimal :=
  let whole := digits.takeWhile Char.isDigit
  if whole = [] then none
  else (readFraction? (digits.dropWhile Char.isDigit)).map (⟨negative, whole, ·⟩)

/-- The number that a text writes: a minus sign or none, digits, and perhaps a point with digits behind it. -/
def read? : List Char → Option Decimal
  | '-' :: digits => readDigits? true digits
  | digits => readDigits? false digits

/-- The digits, with the point where there are any behind it. -/
def digits (d : Decimal) : List Char := d.whole ++ if d.fraction = [] then [] else '.' :: d.fraction

def text (d : Decimal) : List Char :=
  if d.negative then '-' :: d.digits else d.digits

/-- What the number is worth. -/
def value (d : Decimal) : ℚ :=
  (if d.negative then -1 else 1) * (Nat.ofDigitChars 10 (d.whole ++ d.fraction) 0 / 10 ^ d.fraction.length)

/-- A number that can be written. -/
structure Proper (d : Decimal) : Prop where
  whole_ne_nil : d.whole ≠ []
  whole : Digits d.whole
  fraction : Digits d.fraction

theorem readFraction?_eq_some {s fraction : List Char} : readFraction? s = some fraction ↔
    Digits fraction ∧ s = if fraction = [] then [] else '.' :: fraction := by
  constructor
  · intro h
    unfold readFraction? at h
    split at h
    · cases h
      exact ⟨.nil, rfl⟩
    · split_ifs at h with hdigits
      cases h
      exact ⟨List.all_eq_true.mp hdigits.2, (if_neg hdigits.1).symm⟩
    · cases h
  · rintro ⟨hdigits, rfl⟩
    split_ifs with hempty
    · rw [hempty, readFraction?]
    · rw [readFraction?, if_pos ⟨hempty, List.all_eq_true.mpr hdigits⟩]

theorem readDigits?_eq_some {negative : Bool} {s : List Char} {d : Decimal} :
    readDigits? negative s = some d ↔ d.negative = negative ∧ d.Proper ∧ d.digits = s := by
  constructor
  · intro h
    rw [readDigits?] at h
    split_ifs at h with hwhole
    obtain ⟨fraction, hfraction, rfl⟩ := Option.map_eq_some_iff.mp h
    obtain ⟨hdigits, hrest⟩ := readFraction?_eq_some.mp hfraction
    refine ⟨rfl, ⟨hwhole, fun c hc => List.mem_takeWhile_imp hc, hdigits⟩, ?_⟩
    rw [digits, ← hrest, List.takeWhile_append_dropWhile]
  · rintro ⟨rfl, ⟨hne, hwhole, hfraction⟩, rfl⟩
    have hread := readFraction?_eq_some.mpr ⟨hfraction, rfl⟩
    have htake : d.digits.takeWhile Char.isDigit = d.whole := by
      rw [digits, List.takeWhile_append_of_pos hwhole]
      split_ifs <;> exact List.append_nil _
    have hdrop : d.digits.dropWhile Char.isDigit = if d.fraction = [] then [] else '.' :: d.fraction := by
      rw [digits, List.dropWhile_append_of_pos hwhole]
      split_ifs <;> rfl
    simp only [readDigits?, htake, hdrop, hread, if_neg hne, Option.map_some]

/-- There is a point if there are digits behind it. -/
theorem Proper.point_mem {d : Decimal} (h : d.Proper) : '.' ∈ d.text ↔ d.fraction ≠ [] := by
  have hwhole : '.' ∉ d.whole := fun hmem => absurd (h.whole _ hmem) (by decide)
  have hdigits : '.' ∈ d.digits ↔ d.fraction ≠ [] := by
    rw [digits, List.mem_append, or_iff_right hwhole]
    split_ifs with hempty <;> simp [hempty]
  rw [text]
  split_ifs
  · rw [List.mem_cons, or_iff_right (by decide), hdigits]
  · exact hdigits

theorem Proper.minus_notMem_digits {d : Decimal} (h : d.Proper) : '-' ∉ d.digits := by
  rw [digits, List.mem_append]
  rintro (hwhole | hfraction)
  · exact h.whole.minus_notMem hwhole
  · split_ifs at hfraction
    · cases hfraction
    · exact h.fraction.minus_notMem (List.mem_of_ne_of_mem (by decide) hfraction)

/-- A text writes a number exactly if it is the number's text. -/
theorem read?_eq_some {t : List Char} {d : Decimal} : read? t = some d ↔ d.Proper ∧ d.text = t := by
  unfold read?
  split
  · next digits =>
    rw [readDigits?_eq_some, text]
    constructor
    · rintro ⟨hnegative, hproper, hdigits⟩
      exact ⟨hproper, by rw [if_pos hnegative, hdigits]⟩
    · rintro ⟨hproper, htext⟩
      split_ifs at htext with hnegative
      · exact ⟨hnegative, hproper, (List.cons.inj htext).2⟩
      · exact absurd (htext ▸ List.mem_cons_self) hproper.minus_notMem_digits
  · next hminus =>
    rw [readDigits?_eq_some, text]
    constructor
    · rintro ⟨hnegative, hproper, hdigits⟩
      exact ⟨hproper, by rw [if_neg (by simp [hnegative]), hdigits]⟩
    · rintro ⟨hproper, htext⟩
      split_ifs at htext with hnegative
      · exact absurd htext.symm (hminus d.digits)
      · exact ⟨by simpa using hnegative, hproper, htext⟩

/-- A number is read back from its text if its digits do not start with a sign of their own. -/
theorem read?_text {d : Decimal} (h : d.digits.head? ≠ some '-') : read? d.text = readDigits? d.negative d.digits := by
  obtain ⟨negative, whole, fraction⟩ := d
  cases negative with
  | true => rfl
  | false =>
    change read? (digits ⟨false, whole, fraction⟩) = _
    unfold read?
    split
    · next hdigits => exact absurd (congrArg List.head? hdigits) h
    · rfl

end Decimal
end TypedSql.Text

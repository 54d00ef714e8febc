import TypedSql.Protocol.Numeric
import TypedSql.Proofs.Protocol.Taking
import TypedSql.Proofs.Text.Decimal
import Mathlib.Algebra.BigOperators.Fin
import Mathlib.Algebra.BigOperators.Field
import Mathlib.Tactic.FieldSimp
import Mathlib.Tactic.IntervalCases

/-! Decimal numbers of any size: the bytes that hold one, and what its text is worth. -/
namespace TypedSql.Protocol.Numeric
open Text

/-- Two bytes. -/
abbrev Half := { bytes : List UInt8 // bytes.length = 2 }

namespace Half

def of (a b : UInt8) : Half := ⟨[a, b], rfl⟩

/-- The number with its sign. -/
def value (half : Half) : Int := signed half.1

/-- The number without a sign. -/
def code (half : Half) : Nat := unsigned half.1

end Half

/-- What stands before the groups of a number. -/
structure Header where
  count : Half
  weight : Half
  sign : Half
  scale : Half

namespace Header

def bytes (h : Header) : List UInt8 := h.count.1 ++ h.weight.1 ++ h.sign.1 ++ h.scale.1

/-- A number of these groups. -/
def parts (h : Header) (groups : List Half) : Parts :=
  ⟨h.weight.value, h.sign.code = negative, h.scale.code, groups.map Half.value⟩

end Header

section Reading

theorem readHalf_takes : Takes (readSigned 2) fun n bytes => ∃ half : Half, half.value = n ∧ half.1 = bytes :=
  (readSigned_takes 2).boxed

theorem readCode_takes : Takes (readUnsigned 2) fun n bytes => ∃ half : Half, half.code = n ∧ half.1 = bytes :=
  (readUnsigned_takes 2).boxed

/-- Behind its header a number is what its sign word says it is; only a number of either sign has groups. -/
theorem text_header (h : Header) (behind : List UInt8) : text (h.bytes ++ behind) =
    if h.sign.code = notANumber then .ok "NaN".toList
    else if h.sign.code = infinity then .ok "Infinity".toList
    else if h.sign.code = negativeInfinity then .ok "-Infinity".toList
    else if h.sign.code ≠ positive ∧ h.sign.code ≠ negative then .error (.numericSign h.sign.code)
    else (fun read => (Parts.mk h.weight.value (h.sign.code = negative) h.scale.code read.1).text) <$>
      readMany (readSigned 2) h.count.value.toNat behind := by
  simp only [Header.bytes, List.append_assoc, text, readHalf_takes.reads ⟨h.count, rfl, rfl⟩ _,
    readHalf_takes.reads ⟨h.weight, rfl, rfl⟩ _, readCode_takes.reads ⟨h.sign, rfl, rfl⟩ _,
    readCode_takes.reads ⟨h.scale, rfl, rfl⟩ _, ok_bind]
  rw [← bind_ok]
  rfl

/-- What is read as a number starts with a header. -/
theorem text_headed {raw : List UInt8} {t : List Char} (h : text raw = .ok t) :
    ∃ (header : Header) (behind : List UInt8), raw = header.bytes ++ behind := by
  rw [text] at h
  obtain ⟨_, _, _, ⟨count, rfl, rfl⟩, rfl, hweight⟩ := readHalf_takes.bind_eq_ok.mp h
  obtain ⟨_, _, _, ⟨weight, rfl, rfl⟩, rfl, hsign⟩ := readHalf_takes.bind_eq_ok.mp hweight
  obtain ⟨_, _, _, ⟨sign, rfl, rfl⟩, rfl, hscale⟩ := readCode_takes.bind_eq_ok.mp hsign
  obtain ⟨_, _, behind, ⟨scale, rfl, rfl⟩, rfl, -⟩ := readCode_takes.bind_eq_ok.mp hscale
  exact ⟨⟨count, weight, sign, scale⟩, behind, by simp only [Header.bytes, List.append_assoc]⟩

end Reading

section Groups

variable {n : Int}

theorem groupText_of_nonneg (h : 0 ≤ n) : groupText n =
    List.replicate (4 - (Nat.toDigits 10 n.toNat).length) '0' ++ Nat.toDigits 10 n.toNat := by
  have habs : n.natAbs = n.toNat := by omega
  rw [groupText, if_neg (by omega), habs]

theorem groupText_digits (h : 0 ≤ n) : Digits (groupText n) := by
  rw [groupText_of_nonneg h]
  exact .append (.replicate _) (.toDigits _)

/-- An integer that is not negative is written with digits alone, any other behind a minus sign. -/
theorem intText (n : Int) : (toString n).toList =
    if n < 0 then '-' :: Nat.toDigits 10 n.natAbs else Nat.toDigits 10 n.natAbs := by
  rw [Int.toString_eq_repr, Int.repr_eq_if]
  split_ifs with hnonneg hneg hneg
  · omega
  · rw [Nat.toList_repr, ← Int.toNat_of_nonneg hnonneg, Int.toNat_natCast, Int.natAbs_natCast]
  · rw [String.toList_append, Nat.toList_repr, ← Int.natAbs_neg, ← Int.toNat_of_nonneg (a := -n) (by omega)]
    rfl
  · omega

theorem four_le_groupText (n : Int) : 4 ≤ (groupText n).length := by
  have hdigits := Nat.length_toDigits_pos (b := 10) (n := n.natAbs)
  rw [groupText]
  split_ifs
  · rw [List.length_cons, List.length_append, List.length_replicate]
    omega
  · rw [List.length_append, List.length_replicate]
    omega

/-- A group of four digits. -/
def IsGroup (n : Int) : Prop := 0 ≤ n ∧ n < 10000

instance (n : Int) : Decidable (IsGroup n) := inferInstanceAs (Decidable (_ ∧ _))

theorem groupText_length (h : IsGroup n) : (groupText n).length = 4 := by
  have hdigits : (Nat.toDigits 10 n.toNat).length ≤ 4 :=
    (Nat.length_toDigits_le_iff (by decide) (by decide)).mpr (by have := h.2; omega)
  rw [groupText_of_nonneg h.1, List.length_append, List.length_replicate]
  omega

/-- A group behind digits counts as its number. -/
theorem ofDigitChars_groupText (h : IsGroup n) (s : List Char) :
    (Nat.ofDigitChars 10 (s ++ groupText n) 0 : ℚ) = 10000 * Nat.ofDigitChars 10 s 0 + n := by
  have hgroup : Nat.ofDigitChars 10 (groupText n) 0 = n.toNat := by
    rw [groupText_of_nonneg h.1, Nat.ofDigitChars_append, Nat.ofDigitChars_replicate_zero, Nat.mul_zero,
      Nat.ofDigitChars_ten_toDigits]
  have hn : (n.toNat : ℚ) = n := by exact_mod_cast Int.toNat_of_nonneg h.1
  rw [Nat.ofDigitChars_append, Nat.ofDigitChars_eq_ofDigitChars_zero, hgroup, groupText_length h]
  push_cast
  rw [hn]

end Groups

namespace Parts

/-- The decimal digit that counts `10 ^ e`. -/
def place (p : Parts) (e : Int) : Int := p.group (p.weight - e / 4) / 10 ^ (e % 4).toNat % 10

/-- What the number is worth. -/
def value (p : Parts) : ℚ :=
  (if p.negative then -1 else 1) * ∑ i : Fin p.groups.length, (p.groups[i] : ℚ) * 10000 ^ (p.weight - i)

/-- Groups of four digits, none of them behind the last digit that is written. -/
structure WellFormed (p : Parts) : Prop where
  groups : ∀ g ∈ p.groups, IsGroup g
  beyond : ∀ e < -(p.scale : Int), p.place e = 0

/-- The digits of the groups that are looked at for the fraction, before they are cut. -/
def written (p : Parts) (count : Nat) : List Char :=
  (List.range count).flatMap fun (i : Nat) => groupText (p.group (p.weight + 1 + i))

theorem written_succ (p : Parts) (count : Nat) :
    p.written (count + 1) = p.written count ++ groupText (p.group (p.weight + 1 + count)) := by
  rw [written, List.range_succ, List.flatMap_append, List.flatMap_singleton]
  rfl

theorem four_mul_le_written (p : Parts) (count : Nat) : 4 * count ≤ (p.written count).length := by
  induction count with
  | zero => exact Nat.zero_le _
  | succ count ih =>
    have hlast := four_le_groupText (p.group (p.weight + 1 + count))
    rw [written_succ, List.length_append]
    omega

/-- As many digits stand behind the point as are asked for. -/
theorem fractionText_length (p : Parts) : p.fractionText.length = p.scale := by
  have henough := p.four_mul_le_written (p.scale / 4 + 1)
  change ((p.written (p.scale / 4 + 1)).take p.scale).length = p.scale
  rw [List.length_take]
  omega

section Worth

variable {p : Parts}

theorem group_natCast (i : Nat) : p.group i = (p.groups[i]?).getD 0 := by
  rw [group, if_neg (by omega), Int.toNat_natCast]

theorem group_of_neg {i : Int} (h : i < 0) : p.group i = 0 := if_pos h

theorem group_of_le {i : Int} (h : p.groups.length ≤ i) : p.group i = 0 := by
  rw [group, if_neg (by omega), List.getElem?_eq_none (by omega), Option.getD_none]

theorem WellFormed.group (h : p.WellFormed) (i : Int) : IsGroup (p.group i) := by
  rw [Parts.group]
  split_ifs
  · exact ⟨le_rfl, by decide⟩
  · cases hi : p.groups[i.toNat]? with
    | none => exact ⟨le_rfl, by decide⟩
    | some g => exact h.groups g (List.mem_of_getElem? hi)

/-- The number without its sign, in units of the group at `e` and cut off behind it. -/
private def front (p : Parts) (e : Int) : ℚ :=
  ∑ i ∈ Finset.range p.groups.length, if (i : Int) ≤ e then (p.group i : ℚ) * 10000 ^ (e - i) else 0

private theorem front_of_neg {e : Int} (h : e < 0) : p.front e = 0 := by
  apply Finset.sum_eq_zero
  intro i _
  exact if_neg (by omega)

private theorem group_eq_sum (e : Int) :
    (p.group e : ℚ) = ∑ i ∈ Finset.range p.groups.length, if (i : Int) = e then (p.group i : ℚ) else 0 := by
  obtain hneg | hrange | hle : e < 0 ∨ (0 ≤ e ∧ e < p.groups.length) ∨ p.groups.length ≤ e := by omega
  · rw [group_of_neg hneg, Int.cast_zero]
    refine (Finset.sum_eq_zero fun i _ => if_neg ?_).symm
    omega
  · obtain ⟨n, rfl⟩ := Int.eq_ofNat_of_zero_le hrange.1
    rw [Finset.sum_eq_single n, if_pos rfl]
    · intro i _ hi
      exact if_neg (by omega)
    · intro hn
      exact absurd (Finset.mem_range.mpr (by omega)) hn
  · rw [group_of_le hle, Int.cast_zero]
    refine (Finset.sum_eq_zero fun i hi => if_neg ?_).symm
    have := Finset.mem_range.mp hi
    omega

private theorem front_succ (e : Int) : p.front (e + 1) = 10000 * p.front e + p.group (e + 1) := by
  rw [front, front, group_eq_sum (e + 1), Finset.mul_sum, ← Finset.sum_add_distrib]
  apply Finset.sum_congr rfl
  intro i _
  obtain hbefore | hat | hbehind : (i : Int) ≤ e ∨ (i : Int) = e + 1 ∨ e + 1 < i := by omega
  · have hstep : e + 1 - i = e - i + 1 := by ring
    rw [if_pos (by omega), if_pos hbefore, if_neg (by omega), hstep, zpow_add_one₀ (by norm_num)]
    ring
  · rw [if_pos hat.le, if_neg (by omega), if_pos hat, hat]
    simp
  · rw [if_neg (by omega), if_neg (by omega), if_neg (by omega)]
    simp

/-- Where no group stands behind the one at `e`, nothing is cut off. -/
private theorem front_eq_of_last {e : Int} (h : ∀ i, e < i → p.group i = 0) :
    p.front e = 10000 ^ (e - p.weight) * ∑ i : Fin p.groups.length, (p.groups[i] : ℚ) * 10000 ^ (p.weight - i) := by
  have hlist : ∑ i : Fin p.groups.length, (p.groups[i] : ℚ) * 10000 ^ (p.weight - i) =
      ∑ i ∈ Finset.range p.groups.length, (p.group i : ℚ) * 10000 ^ (p.weight - i) := by
    rw [Finset.sum_range]
    apply Finset.sum_congr rfl
    intro i _
    simp [group_natCast]
  rw [front, hlist, Finset.mul_sum]
  apply Finset.sum_congr rfl
  intro i _
  split_ifs with hi
  · have hsplit : e - i = e - p.weight + (p.weight - i) := by ring
    rw [hsplit, zpow_add₀ (by norm_num)]
    ring
  · rw [h i (by omega)]
    simp

/-- Groups written behind digits that are worth the groups before them. -/
private theorem ofDigitChars_groups (h : p.WellFormed) {s : List Char} {e : Int}
    (hs : (Nat.ofDigitChars 10 s 0 : ℚ) = p.front e) (count : Nat) :
    (Nat.ofDigitChars 10 (s ++ (List.range count).flatMap fun (i : Nat) => groupText (p.group (e + 1 + i))) 0 : ℚ) =
      p.front (e + count) := by
  induction count with
  | zero => simpa using hs
  | succ count ih =>
    have hnext : e + (count + 1 : Nat) = e + count + 1 := by push_cast; ring
    have hgroup : e + 1 + count = e + count + 1 := by ring
    rw [List.range_succ, List.flatMap_append, List.flatMap_singleton, ← List.append_assoc,
      ofDigitChars_groupText (h.group _), ih, hnext, front_succ, hgroup]

private theorem ofDigitChars_wholeText (h : p.WellFormed) :
    (Nat.ofDigitChars 10 p.wholeText 0 : ℚ) = p.front p.weight := by
  rw [wholeText]
  split_ifs with hweight
  · rw [front_of_neg hweight]
    norm_num [Nat.ofDigitChars]
  · have hfirst : (Nat.ofDigitChars 10 (toString (p.group 0)).toList 0 : ℚ) = p.front 0 := by
      have hfront : p.front 0 = 10000 * p.front (-1) + p.group 0 := front_succ (-1)
      rw [front_of_neg (e := -1) (by decide), mul_zero, zero_add] at hfront
      have hfirst := (h.group 0).1
      have habs : ((p.group 0).natAbs : ℚ) = p.group 0 := by
        rw [← Int.cast_natCast, Int.natAbs_of_nonneg hfirst]
      rw [hfront, intText, if_neg (by omega), Nat.ofDigitChars_ten_toDigits, habs]
    have hgroups := ofDigitChars_groups h hfirst p.weight.toNat
    have hlast : 0 + (p.weight.toNat : Int) = p.weight := by omega
    simp only [hlast, zero_add, add_comm (1 : Int)] at hgroups
    exact hgroups

theorem place_group (i : Int) {r : Nat} (hr : r < 4) :
    p.place (4 * (p.weight - i) + r) = p.group i / 10 ^ r % 10 := by
  have hgroup : p.weight - (4 * (p.weight - i) + r) / 4 = i := by omega
  have hdigit : ((4 * (p.weight - i) + r) % 4).toNat = r := by omega
  rw [place, hgroup, hdigit]

/-- Digits that are not written are zeros. -/
private theorem WellFormed.pow_dvd_group (h : p.WellFormed) {i : Int} {k : Nat} (hk : k ≤ 4)
    (hcut : 4 * (p.weight - i) + k ≤ -p.scale) : (10 ^ k : Int) ∣ p.group i := by
  induction k with
  | zero => exact one_dvd _
  | succ k ih =>
    obtain ⟨q, hq⟩ := ih (by omega) (by omega)
    have hdigit : p.group i / 10 ^ k % 10 = 0 := by
      rw [← place_group i (by omega)]
      exact h.beyond _ (by omega)
    rw [hq, Int.mul_ediv_cancel_left _ (by positivity)] at hdigit
    rw [hq, pow_succ]
    exact mul_dvd_mul_left _ (Int.dvd_of_emod_eq_zero hdigit)

private theorem WellFormed.group_eq_zero (h : p.WellFormed) {i : Int} (hcut : 4 * (p.weight - i) + 4 ≤ -p.scale) :
    p.group i = 0 :=
  Int.eq_zero_of_dvd_of_nonneg_of_lt (h.group i).1 (h.group i).2 (h.pow_dvd_group le_rfl hcut)

private theorem WellFormed.written_length (h : p.WellFormed) (count : Nat) : (p.written count).length = 4 * count := by
  induction count with
  | zero => rfl
  | succ count ih =>
    rw [written_succ, List.length_append, ih, groupText_length (h.group _)]
    ring

private theorem WellFormed.written_digits (h : p.WellFormed) (count : Nat) : Digits (p.written count) :=
  .flatMap fun _ _ => groupText_digits (h.group _).1

/-- The digits that are cut are zeros. -/
private theorem WellFormed.cut_zero (h : p.WellFormed) :
    let cut := (p.written (p.scale / 4 + 1)).drop p.scale
    Nat.ofDigitChars 10 cut 0 = 0 := by
  intro cut
  have hlength : cut.length = 4 * (p.scale / 4 + 1) - p.scale := by rw [List.length_drop, h.written_length]
  have hsplit : p.written (p.scale / 4 + 1) = p.fractionText ++ cut := (List.take_append_drop _ _).symm
  have hdigits : Digits cut := fun c hc => h.written_digits _ c (List.mem_of_mem_drop hc)
  refine Nat.eq_zero_of_dvd_of_lt ?_ hdigits.ofDigitChars_lt
  -- the last group ends in as many zeros as digits are cut, and in it they all stand
  have hlast : (10 ^ cut.length : Int) ∣ p.group (p.weight + 1 + (p.scale / 4 : Nat)) :=
    h.pow_dvd_group (by omega) (by omega)
  have htens : (10 ^ cut.length : Int) ∣ 10000 := pow_dvd_pow 10 (show cut.length ≤ 4 by omega)
  have hnumber : (Nat.ofDigitChars 10 (p.written (p.scale / 4 + 1)) 0 : Int) =
      10000 * Nat.ofDigitChars 10 (p.written (p.scale / 4)) 0 + p.group (p.weight + 1 + (p.scale / 4 : Nat)) := by
    have hgroup := ofDigitChars_groupText (h.group (p.weight + 1 + (p.scale / 4 : Nat))) (p.written (p.scale / 4))
    rw [← written_succ] at hgroup
    exact_mod_cast hgroup
  have hwritten : (10 ^ cut.length : Int) ∣ Nat.ofDigitChars 10 (p.written (p.scale / 4 + 1)) 0 := by
    rw [hnumber]
    exact dvd_add (htens.mul_right _) hlast
  rw [hsplit, Nat.ofDigitChars_append, Nat.ofDigitChars_eq_ofDigitChars_zero] at hwritten
  exact (Nat.dvd_add_right (dvd_mul_right _ _)).mp (by exact_mod_cast hwritten)

/-- The digits of a text are worth the number, in units of the last of them. -/
private theorem ofDigitChars_text (h : p.WellFormed) :
    (Nat.ofDigitChars 10 (p.wholeText ++ p.fractionText) 0 : ℚ) = 10 ^ p.scale *
      ∑ i : Fin p.groups.length, (p.groups[i] : ℚ) * 10000 ^ (p.weight - i) := by
  let count := p.scale / 4 + 1
  let cut := (p.written count).drop p.scale
  have hlength : p.scale + cut.length = 4 * count := by
    have hdrop : cut.length = 4 * count - p.scale := by rw [List.length_drop, h.written_length]
    omega
  have hsplit : p.wholeText ++ p.written count = p.wholeText ++ p.fractionText ++ cut := by
    rw [List.append_assoc]
    exact congrArg _ (List.take_append_drop _ _).symm
  have hwritten := ofDigitChars_groups h (ofDigitChars_wholeText h) count
  have hbehind : ∀ i, p.weight + count < i → p.group i = 0 := fun i hi => h.group_eq_zero (by omega)
  have hworth : p.weight + count - p.weight = (count : Int) := by ring
  rw [front_eq_of_last hbehind, hworth, zpow_natCast] at hwritten
  change (Nat.ofDigitChars 10 (p.wholeText ++ p.written count) 0 : ℚ) = _ at hwritten
  rw [hsplit, Nat.ofDigitChars_append, Nat.ofDigitChars_eq_ofDigitChars_zero, h.cut_zero, Nat.add_zero] at hwritten
  have htens : (10000 : ℚ) ^ count = 10 ^ cut.length * 10 ^ p.scale := by
    have hpow : (10000 : ℚ) = 10 ^ 4 := by norm_num
    rw [hpow, ← pow_mul, ← hlength, add_comm, pow_add]
  rw [htens, mul_assoc] at hwritten
  push_cast at hwritten
  exact mul_left_cancel₀ (by positivity) hwritten

theorem wholeText_ne_nil (p : Parts) : p.wholeText ≠ [] := by
  rw [wholeText]
  split_ifs
  · exact List.cons_ne_nil _ _
  · refine List.append_ne_nil_of_left_ne_nil ?_ _
    rw [intText]
    split_ifs
    · exact List.cons_ne_nil _ _
    · exact Nat.toDigits_ne_nil

theorem WellFormed.proper (h : p.WellFormed) : Decimal.Proper ⟨p.negative, p.wholeText, p.fractionText⟩ where
  whole_ne_nil := p.wholeText_ne_nil
  whole := by
    rw [wholeText]
    split_ifs
    · exact List.forall_mem_singleton.mpr rfl
    · have hfirst := (h.group 0).1
      rw [intText, if_neg (by omega)]
      exact .append (.toDigits _) (.flatMap fun _ _ => groupText_digits (h.group _).1)
  fraction := fun c hc => h.written_digits _ c (List.mem_of_mem_take hc)

theorem text_eq (p : Parts) : p.text = Decimal.text ⟨p.negative, p.wholeText, p.fractionText⟩ := by
  have hempty : p.fractionText = [] ↔ p.scale = 0 := by rw [← p.fractionText_length, List.length_eq_zero_iff]
  simp only [text, Decimal.text, Decimal.digits, hempty]
  cases p.negative <;> rfl

end Worth

end Parts

/-- Bytes that hold a number of either sign with all its groups. -/
structure Header.Sends (h : Header) (groups : List Half) : Prop where
  count : h.count.value = groups.length
  sign : h.sign.code = positive ∨ h.sign.code = negative
  wellFormed : (h.parts groups).WellFormed

theorem text_parts (h : Header) {groups : List Half} (hcount : groups.length = h.count.value.toNat)
    (hsign : h.sign.code = positive ∨ h.sign.code = negative) (behind : List UInt8) :
    text (h.bytes ++ (groups.flatMap Subtype.val ++ behind)) = .ok (h.parts groups).text := by
  have hread := (readHalf_takes.many h.count.value.toNat).reads ⟨groups, hcount, rfl, rfl⟩ behind
  have hnumber : h.sign.code ≠ notANumber ∧ h.sign.code ≠ infinity ∧ h.sign.code ≠ negativeInfinity := by
    rcases hsign with hsign | hsign <;> rw [hsign] <;> decide
  rw [text_header, if_neg hnumber.1, if_neg hnumber.2.1, if_neg hnumber.2.2, if_neg (by tauto), hread]
  rfl

/-- The text of a number has as many digits behind the point as the number says, no point without any, and is
worth exactly the sum of its groups, however many were left out before, between and behind them. -/
theorem text_exact {h : Header} {groups : List Half} (hsends : h.Sends groups) :
    ∃ t d, text (h.bytes ++ groups.flatMap Subtype.val) = .ok t ∧ Decimal.read? t = some d ∧
      d.fraction.length = h.scale.code ∧ ('.' ∈ t ↔ h.scale.code ≠ 0) ∧ d.value = (h.parts groups).value := by
  obtain ⟨hcount, hsign, hparts⟩ := hsends
  generalize hp : h.parts groups = p at hparts
  have hscale : p.scale = h.scale.code := by rw [← hp]; rfl
  have hlength : groups.length = h.count.value.toNat := by omega
  have htext := text_parts h hlength hsign []
  rw [List.append_nil, hp, p.text_eq] at htext
  refine ⟨_, _, htext, Decimal.read?_eq_some.mpr ⟨hparts.proper, rfl⟩, ?_, ?_, ?_⟩
  · rw [p.fractionText_length, hscale]
  · rw [hparts.proper.point_mem, ← List.length_pos_iff, p.fractionText_length, hscale, Nat.pos_iff_ne_zero]
  · simp only [Decimal.value, Parts.value, Parts.ofDigitChars_text hparts, p.fractionText_length]
    rw [mul_div_cancel_left₀ _ (by positivity)]

/-- A group of zeros before the first group, and a digit of the last one that is not asked for. -/
theorem text_exact_small :
    let h : Header := ⟨.of 0 2, .of 255 254, .of 64 0, .of 0 9⟩
    let groups : List Half := [.of 0 5, .of 15 160]
    h.Sends groups ∧ (h.parts groups).value = -54 / 10 ^ 9 ∧
      text (h.bytes ++ groups.flatMap Subtype.val) = .ok "-0.000000054".toList := by
  intro h groups
  have hsends : h.Sends groups := by
    refine ⟨by decide +kernel, .inr (by decide), ⟨by decide +kernel, fun e he => ?_⟩⟩
    have hscale : e < -9 := he
    have hweight : (h.parts groups).weight = -2 := by decide +kernel
    obtain hlast | hbehind : -12 ≤ e ∨ 2 ≤ -2 - e / 4 := by omega
    · interval_cases e <;> decide +kernel
    · rw [Parts.place, hweight, Parts.group_of_le hbehind]
      simp
  have htext : text (h.bytes ++ groups.flatMap Subtype.val) = .ok "-0.000000054".toList := by decide +kernel
  obtain ⟨t, d, ht, hd, -, -, hvalue⟩ := text_exact hsends
  rw [htext] at ht
  cases ht
  have hread : Decimal.read? "-0.000000054".toList = some ⟨true, ['0'], "000000054".toList⟩ := by decide
  rw [hread] at hd
  cases hd
  have hdigits : Nat.ofDigitChars 10 ('0' :: "000000054".toList) 0 = 54 := by decide
  have hlength : "000000054".toList.length = 9 := by decide
  refine ⟨hsends, ?_, htext⟩
  rw [← hvalue, Decimal.value, List.singleton_append, hdigits, hlength]
  norm_num

end TypedSql.Protocol.Numeric

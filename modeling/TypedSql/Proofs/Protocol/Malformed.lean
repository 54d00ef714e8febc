import TypedSql.Proofs.Protocol.Numbers
import TypedSql.Proofs.Protocol.Addresses

/-! Bytes that no number and no address has, and the texts that are made of them. -/
namespace TypedSql.Protocol
open Text

namespace Numeric

/-- A text that is a decimal number or the name of a number that is not finite. -/
def Literal (t : List Char) : Prop :=
  t ∈ ["NaN".toList, "Infinity".toList, "-Infinity".toList] ∨ (Decimal.read? t).isSome

instance (t : List Char) : Decidable (Literal t) := inferInstanceAs (Decidable (_ ∨ _))

private theorem minus_mem_take_groupText (n : Int) (count : Nat) :
    '-' ∈ (groupText n).take count ↔ 0 < count ∧ n < 0 := by
  by_cases hn : n < 0
  · rw [groupText, if_pos hn]
    cases count <;> simp [hn]
  · have hdigits := (groupText_digits (not_lt.mp hn)).minus_notMem
    simp only [hn, and_false, iff_false]
    exact fun hmem => hdigits (List.mem_of_mem_take hmem)

private theorem minus_mem_groupText (n : Int) : '-' ∈ groupText n ↔ n < 0 := by
  have hwhole := minus_mem_take_groupText n (groupText n).length
  have hlength := four_le_groupText n
  rwa [List.take_length, and_iff_right (by omega)] at hwhole

namespace Parts

variable {p : Parts}

/-- A group whose digits stand in the text, all of them or the first ones. -/
def Shows (p : Parts) (i : Int) : Prop :=
  0 ≤ i ∧ i ≤ p.weight ∨ ∃ k : Nat, i = p.weight + 1 + k ∧ (p.written k).length < p.scale

private theorem minus_mem_take_written (count length : Nat) : '-' ∈ (p.written count).take length ↔
    ∃ k < count, (p.written k).length < length ∧ p.group (p.weight + 1 + k) < 0 := by
  induction count with
  | zero => simp [written]
  | succ count ih =>
    rw [written_succ, List.take_append, List.mem_append, ih, minus_mem_take_groupText, Nat.sub_pos_iff_lt,
      Nat.exists_lt_succ_right]

private theorem minus_mem_fractionText : '-' ∈ p.fractionText ↔
    ∃ k : Nat, (p.written k).length < p.scale ∧ p.group (p.weight + 1 + k) < 0 := by
  refine (minus_mem_take_written (p.scale / 4 + 1) p.scale).trans ⟨fun ⟨k, _, hk⟩ => ⟨k, hk⟩, fun ⟨k, hk⟩ => ?_⟩
  have hlong := p.four_mul_le_written k
  exact ⟨k, by omega, hk⟩

/-- A number without a sign whose first group is negative: its text starts with the sign of the group. -/
def Leads (p : Parts) : Prop := 0 ≤ p.weight ∧ p.group 0 < 0

/-- The digits before the point, without the sign of the first group. -/
private def frontText (p : Parts) : List Char :=
  if p.weight < 0 then ['0']
  else Nat.toDigits 10 (p.group 0).natAbs ++
    (List.range p.weight.toNat).flatMap fun (i : Nat) => groupText (p.group (i + 1))

private theorem wholeText_of_leads (h : p.Leads) : p.wholeText = '-' :: p.frontText := by
  have hweight : ¬ p.weight < 0 := not_lt.mpr h.1
  rw [wholeText, frontText, if_neg hweight, if_neg hweight, intText, if_pos h.2]
  rfl

private theorem wholeText_of_not_leads (h : ¬ p.Leads) : p.wholeText = p.frontText := by
  rw [wholeText, frontText]
  split_ifs with hweight
  · rfl
  · rw [intText, if_neg fun hfirst => h ⟨not_lt.mp hweight, hfirst⟩]

private theorem minus_mem_frontText : '-' ∈ p.frontText ↔ ∃ k < p.weight.toNat, p.group (k + 1) < 0 := by
  rw [frontText]
  split_ifs with hweight
  · have hnone : p.weight.toNat = 0 := by omega
    simp [hnone]
  · have hfirst := (Digits.toDigits (p.group 0).natAbs).minus_notMem
    simp [hfirst, minus_mem_groupText]

private theorem exists_digit_frontText : ∃ c s, p.frontText = c :: s ∧ c.isDigit = true := by
  rw [frontText]
  split_ifs
  · exact ⟨'0', [], rfl, rfl⟩
  · obtain ⟨c, s, hc⟩ := List.exists_cons_of_ne_nil (Nat.toDigits_ne_nil (n := (p.group 0).natAbs) (b := 10))
    exact ⟨c, _, by rw [hc, List.cons_append], Digits.toDigits (p.group 0).natAbs c (hc ▸ List.mem_cons_self)⟩

private theorem digits_frontText (h : '-' ∉ p.frontText) : Digits p.frontText := by
  have hgroups : ∀ k < p.weight.toNat, 0 ≤ p.group (k + 1) := by simpa [minus_mem_frontText] using h
  rw [frontText]
  split_ifs
  · exact List.forall_mem_singleton.mpr rfl
  · exact .append (.toDigits _) (.flatMap fun k hk => groupText_digits (hgroups k (List.mem_range.mp hk)))

private theorem digits_take_written {count length : Nat} (h : '-' ∉ (p.written count).take length) :
    Digits ((p.written count).take length) := by
  induction count with
  | zero => simp [written, Digits.nil]
  | succ count ih =>
    rw [written_succ, List.take_append, List.mem_append, not_or, minus_mem_take_groupText] at h
    rw [written_succ, List.take_append]
    refine .append (ih h.1) ?_
    obtain hempty | hnonneg : length - (p.written count).length = 0 ∨ 0 ≤ p.group (p.weight + 1 + count) := by
      have := h.2
      omega
    · rw [hempty, List.take_zero]
      exact .nil
    · exact fun c hc => groupText_digits hnonneg c (List.mem_of_mem_take hc)

/-- Behind one sign or none, digits are a number if there is no other sign among them. -/
private theorem read?_frontText (b : Bool) : (Decimal.read? (Decimal.text ⟨b, p.frontText, p.fractionText⟩)).isSome ↔
    '-' ∉ p.frontText ∧ '-' ∉ p.fractionText := by
  obtain ⟨c, s, hc, hdigit⟩ := p.exists_digit_frontText
  have hhead : (Decimal.digits ⟨b, p.frontText, p.fractionText⟩).head? ≠ some '-' := by
    rw [Decimal.digits, hc]
    rintro ⟨⟩
    exact absurd hdigit (by decide)
  rw [Decimal.read?_text hhead, Option.isSome_iff_exists]
  constructor
  · rintro ⟨d, hd⟩
    obtain ⟨-, hproper, hdigits⟩ := Decimal.readDigits?_eq_some.mp hd
    have hminus := hproper.minus_notMem_digits
    rw [hdigits, Decimal.digits, List.mem_append, not_or] at hminus
    refine ⟨hminus.1, fun hmem => hminus.2 ?_⟩
    dsimp only
    rw [if_neg (List.ne_nil_of_mem hmem)]
    exact List.mem_cons_of_mem _ hmem
  · rintro ⟨hfront, hfraction⟩
    have hne : p.frontText ≠ [] := by rw [hc]; exact List.cons_ne_nil _ _
    exact ⟨_, Decimal.readDigits?_eq_some.mpr
      ⟨rfl, ⟨hne, digits_frontText hfront, digits_take_written hfraction⟩, rfl⟩⟩

/-- The text is one of a number if no group that it shows is negative, but for the first one before the point
of a number without a sign. -/
theorem read?_text_isSome (p : Parts) : (Decimal.read? p.text).isSome ↔
    ∀ i, p.Shows i → p.group i < 0 → i = 0 ∧ 0 ≤ p.weight ∧ p.negative = false := by
  have hsigns : (∀ i, p.Shows i → p.group i < 0 → i = 0 ∧ 0 ≤ p.weight ∧ p.negative = false) ↔
      ¬ (p.Leads ∧ p.negative = true) ∧ '-' ∉ p.frontText ∧ '-' ∉ p.fractionText := by
    rw [minus_mem_frontText, minus_mem_fractionText]
    constructor
    · refine fun h => ⟨?_, ?_, ?_⟩
      · rintro ⟨hleads, hnegative⟩
        obtain ⟨-, -, hplain⟩ := h 0 (.inl ⟨le_rfl, hleads.1⟩) hleads.2
        rw [hnegative] at hplain
        cases hplain
      · rintro ⟨k, hk, hgroup⟩
        obtain ⟨hfirst, -⟩ := h (k + 1) (.inl ⟨by omega, by omega⟩) hgroup
        omega
      · rintro ⟨k, hk, hgroup⟩
        obtain ⟨hfirst, hweight, -⟩ := h (p.weight + 1 + k) (.inr ⟨k, rfl, hk⟩) hgroup
        omega
    · rintro ⟨hboth, hfront, hfraction⟩ i (⟨hlow, hhigh⟩ | ⟨k, rfl, hk⟩) hgroup
      · by_cases hfirst : i = 0
        · subst hfirst
          exact ⟨rfl, hhigh, by simpa using fun hnegative => hboth ⟨⟨hhigh, hgroup⟩, hnegative⟩⟩
        · obtain ⟨k, rfl⟩ : ∃ k : Nat, i = k + 1 := ⟨(i - 1).toNat, by omega⟩
          exact absurd ⟨k, by omega, hgroup⟩ hfront
      · exact absurd ⟨k, hk, hgroup⟩ hfraction
  rw [hsigns, p.text_eq]
  by_cases hleads : p.Leads
  · rw [wholeText_of_leads hleads]
    cases hnegative : p.negative with
    | true =>
      have hnone : Decimal.read? (Decimal.text ⟨true, '-' :: p.frontText, p.fractionText⟩) = none := rfl
      simp [hnone, hleads]
    | false =>
      have htext : Decimal.text ⟨false, '-' :: p.frontText, p.fractionText⟩ =
          Decimal.text ⟨true, p.frontText, p.fractionText⟩ := rfl
      rw [htext, read?_frontText]
      simp
  · rw [wholeText_of_not_leads hleads, read?_frontText]
    simp [hleads]

/-- No number is written as one that is not finite. -/
theorem literal_text (p : Parts) : Literal p.text ↔ (Decimal.read? p.text).isSome := by
  refine or_iff_right fun hname => ?_
  obtain ⟨c, s, hc, hdigit⟩ := p.exists_digit_frontText
  have hmem : c ∈ p.text := by
    have hwhole : c ∈ p.wholeText := by
      by_cases hleads : p.Leads
      · rw [wholeText_of_leads hleads, hc]
        exact List.mem_cons_of_mem _ List.mem_cons_self
      · rw [wholeText_of_not_leads hleads, hc]
        exact List.mem_cons_self
    simp [text, hwhole]
  have hnames : ∀ t ∈ ["NaN".toList, "Infinity".toList, "-Infinity".toList],
      ∀ c ∈ t, c.isDigit = false := by
    simp [Char.isDigit]
  rw [hnames _ hname c hmem] at hdigit
  cases hdigit

end Parts

/-- What is read is the name of a number that is not finite, or the text of a header with the groups it counts. -/
private theorem text_cases {raw : List UInt8} {t : List Char} (h : text raw = .ok t) :
    t ∈ ["NaN".toList, "Infinity".toList, "-Infinity".toList] ∨
    ∃ (h : Header) (groups : List Half) (behind : List UInt8),
      raw = h.bytes ++ (groups.flatMap Subtype.val ++ behind) ∧ groups.length = h.count.value.toNat ∧
      (h.sign.code = positive ∨ h.sign.code = negative) ∧ t = (h.parts groups).text := by
  obtain ⟨header, behind, rfl⟩ := text_headed h
  rw [text_header] at h
  split_ifs at h with hnan hinfinity hnegative hsign
  · cases h
    exact .inl List.mem_cons_self
  · cases h
    exact .inl (List.mem_cons_of_mem _ List.mem_cons_self)
  · cases h
    exact .inl (List.mem_cons_of_mem _ (List.mem_cons_of_mem _ List.mem_cons_self))
  · obtain ⟨⟨groups, rest⟩, hread, rfl⟩ := map_eq_ok.mp h
    obtain ⟨_, ⟨halves, hlength, rfl, rfl⟩, rfl⟩ := (readHalf_takes.many _ _ _ _).mp hread
    exact .inr ⟨header, halves, rest, rfl, hlength, by tauto, rfl⟩

private theorem Header.parts_plain {h : Header} (hsign : h.sign.code = positive ∨ h.sign.code = negative)
    (groups : List Half) : (h.parts groups).negative = false ↔ h.sign.code = positive := by
  have hdistinct : positive ≠ negative := by decide
  rw [parts, decide_eq_false_iff_not]
  constructor
  · exact hsign.resolve_right
  · exact fun hpositive => hpositive ▸ hdistinct

end Numeric

/-- Every text that is given for a number or an address is one of them, unless a group that it shows is negative or
more bits are meant than the address has. In both cases there is a text nevertheless. -/
theorem text_malformed (raw : List UInt8) (alwaysBits : Bool) :
    (∀ {t : List Char}, Numeric.text raw = .ok t →
      t ∈ ["NaN".toList, "Infinity".toList, "-Infinity".toList] ∨
      ∃ (h : Numeric.Header) (groups : List Numeric.Half) (behind : List UInt8),
        raw = h.bytes ++ (groups.flatMap Subtype.val ++ behind) ∧ groups.length = h.count.value.toNat ∧
        (h.sign.code = Numeric.positive ∨ h.sign.code = Numeric.negative) ∧ t = (h.parts groups).text ∧
        (Numeric.Literal t ↔ ∀ i, (h.parts groups).Shows i → (h.parts groups).group i < 0 →
          i = 0 ∧ 0 ≤ h.weight.value ∧ h.sign.code = Numeric.positive)) ∧
    (∀ {t : String}, Address.networkText raw alwaysBits = .ok t →
      ∃ sent : Address.Sent, sent.bytes = raw ∧ Address.Network.read? t.toList =
        if sent.bits.toNat ≤ 8 * sent.octets.length then some ⟨sent.octets, sent.bits.toNat⟩ else none) := by
  constructor
  · intro t h
    refine (Numeric.text_cases h).imp_right fun ⟨header, groups, behind, hraw, hlength, hsign, hparts⟩ =>
      ⟨header, groups, behind, hraw, hlength, hsign, hparts, ?_⟩
    rw [hparts, ← Numeric.Header.parts_plain hsign groups]
    exact (header.parts groups).literal_text.trans (header.parts groups).read?_text_isSome
  · intro t h
    obtain ⟨sent, hbytes, rfl⟩ := Address.networkText_eq_ok.mp h
    exact ⟨sent, hbytes, sent.read?_text alwaysBits⟩

/-- A negative group behind the first one, and 33 bits of an address that has 32. -/
theorem text_malformed_small :
    (∃ (h : Numeric.Header) (groups : List Numeric.Half) (behind : List UInt8),
      [0, 2, 0, 1, 0, 0, 0, 0, 0, 1, 255, 255] = h.bytes ++ (groups.flatMap Subtype.val ++ behind) ∧
      "1-001".toList = (h.parts groups).text ∧
      ∃ i, (h.parts groups).Shows i ∧ (h.parts groups).group i < 0 ∧
        (i = 0 → 0 ≤ h.weight.value → h.sign.code ≠ Numeric.positive)) ∧
    ∃ sent : Address.Sent, sent.bytes = [2, 33, 0, 4, 10, 0, 0, 1] ∧ 8 * sent.octets.length < sent.bits.toNat := by
  constructor
  · have htext : Numeric.text [0, 2, 0, 1, 0, 0, 0, 0, 0, 1, 255, 255] = .ok "1-001".toList := by decide +kernel
    have hname : "1-001".toList ∉ ["NaN".toList, "Infinity".toList, "-Infinity".toList] := by decide
    have hliteral : ¬ Numeric.Literal "1-001".toList := by decide
    obtain ⟨h, groups, behind, hraw, -, -, hparts, hiff⟩ := ((text_malformed _ false).1 htext).resolve_left hname
    refine ⟨h, groups, behind, hraw, hparts, ?_⟩
    rw [hiff] at hliteral
    push Not at hliteral
    exact hliteral
  · have htext : Address.networkText [2, 33, 0, 4, 10, 0, 0, 1] false = .ok "10.0.0.1/33" := by decide +kernel
    have hread : Address.Network.read? "10.0.0.1/33".toList = none := by decide +kernel
    obtain ⟨sent, hbytes, hsent⟩ := (text_malformed _ false).2 htext
    refine ⟨sent, hbytes, ?_⟩
    rw [hread] at hsent
    by_contra hfit
    rw [if_pos (not_lt.mp hfit)] at hsent
    cases hsent

/-- A text with a sign among its digits and one with more bits than an address of its kind has are given, and
neither a number nor an address has such a text. -/
theorem malformed_taken :
    (∃ t, Numeric.text [0, 2, 0, 1, 0, 0, 0, 0, 0, 1, 255, 255] = .ok t ∧ ¬ Numeric.Literal t) ∧
    ∃ t, Address.networkText [2, 33, 0, 4, 10, 0, 0, 1] false = .ok t ∧
      Address.Network.read? t.toList = none :=
  ⟨⟨"1-001".toList, by decide +kernel, by decide⟩, "10.0.0.1/33", by decide +kernel, by decide +kernel⟩

end TypedSql.Protocol

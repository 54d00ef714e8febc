import TypedSql.Proofs.Outcome
import TypedSql.Sql.Token.Scan
import Mathlib.Data.List.TakeWhile

/-! What the tokenizer takes: every token a part of the text, cut from the front of what is left, and in
which parts a question mark may stand. -/
namespace TypedSql.Sql
open Text

/-- A token and the text it takes. -/
structure Part where
  token : Token
  text : List Char

/-- Where question marks stand in a part: at the head of a placeholder, which may have one character
behind it, anywhere in literals, quoted names and comments, in operators of several characters, and
nowhere else. -/
def Part.Sound (p : Part) : Prop :=
  match p.token with
  | .placeholder => ∃ s, p.text = '?' :: s ∧ s.length ≤ 1
  | .literal | .quotedName | .comment => True
  | .symbol => '?' ∈ p.text → 2 ≤ p.text.length
  | .blank | .word | .number | .parameter _ => '?' ∉ p.text

section Suffixes

variable {text rest : List Char}

theorem afterQuote_suffix {quote : Char} {escapes : Bool} (h : afterQuote quote escapes text = some rest) :
    rest <:+ text := by
  fun_induction afterQuote quote escapes text with
  | case1 | case3 => cases h
  | case2 =>
    cases h
    exact List.suffix_cons _ _
  | case4 _ ih | case6 _ _ _ _ _ ih =>
    exact (ih h).trans ((List.suffix_cons _ _).trans (List.suffix_cons _ _))
  | case5 =>
    cases h
    exact List.suffix_cons _ _
  | case7 _ _ _ _ _ ih => exact (ih h).trans (List.suffix_cons _ _)

theorem afterEscapedString_suffix {skip : Nat} (h : afterEscapedString skip text = some rest) :
    rest <:+ text := by
  fun_induction afterEscapedString skip text with
  | case1 | case6 => cases h
  | case4 =>
    cases h
    exact List.suffix_cons _ _
  | case2 _ _ _ ih | case3 _ _ ih | case5 _ _ _ _ ih | case7 _ _ _ _ ih =>
    exact (ih h).trans (List.suffix_cons _ _)

theorem afterUnicodeString_suffix {skip : Nat} (h : afterUnicodeString skip text = .ok rest) :
    rest <:+ text := by
  fun_induction afterUnicodeString skip text with
  | case1 => cases h
  | case4 =>
    cases h
    exact List.suffix_cons _ _
  | case2 _ _ _ ih | case3 _ _ ih | case5 _ _ ih | case8 _ _ _ _ ih =>
    exact (ih h).trans (List.suffix_cons _ _)
  | case6 _ _ ih | case7 _ _ _ _ ih =>
    obtain ⟨_, -, h⟩ := bind_eq_ok.mp h
    exact (ih h).trans (List.suffix_cons _ _)

theorem afterDollars_suffix (h : afterDollars text = some rest) : rest <:+ text := by
  fun_induction afterDollars text with
  | case1 =>
    cases h
    exact (List.suffix_cons _ _).trans (List.suffix_cons _ _)
  | case2 _ _ _ ih => exact (ih h).trans (List.suffix_cons _ _)
  | case3 => cases h

theorem afterTag_suffix {tag : List Char} {pending : Option (List Char)}
    (h : afterTag tag pending text = some rest) : rest <:+ text := by
  fun_induction afterTag tag pending text with
  | case1 => cases h
  | case3 =>
    cases h
    exact List.suffix_cons _ _
  | case2 _ _ ih | case4 _ _ _ ih | case5 _ _ _ _ ih => exact (ih h).trans (List.suffix_cons _ _)

theorem afterComment_suffix {last : Char} {depth : Nat} (h : afterComment last depth text = some rest) :
    rest <:+ text := by
  fun_induction afterComment last depth text with
  | case1 => cases h
  | case3 =>
    cases h
    exact List.suffix_cons _ _
  | case2 _ _ _ _ _ ih | case4 _ _ _ _ _ _ ih | case5 _ _ _ _ _ _ ih =>
    exact (ih h).trans (List.suffix_cons _ _)

theorem afterFixedOperator_suffix (c : Char) (text : List Char) : afterFixedOperator c text <:+ text := by
  unfold afterFixedOperator
  split <;> simp only [List.suffix_cons_iff, List.suffix_rfl, or_true]

end Suffixes

/-- Text from which some characters are taken that are no question marks. -/
def Skips (text rest : List Char) : Prop := ∃ s, text = s ++ rest ∧ '?' ∉ s

namespace Skips

variable {text rest rest' : List Char}

theorem refl (text : List Char) : Skips text text := ⟨[], rfl, by simp⟩

theorem trans (h : Skips text rest) (h' : Skips rest rest') : Skips text rest' := by
  obtain ⟨s, rfl, hs⟩ := h
  obtain ⟨s', rfl, hs'⟩ := h'
  exact ⟨s ++ s', (List.append_assoc _ _ _).symm, by simp [hs, hs']⟩

theorem cons {c : Char} (hc : c ≠ '?') (h : Skips text rest) : Skips (c :: text) rest := by
  obtain ⟨s, rfl, hs⟩ := h
  exact ⟨c :: s, rfl, by simp [hs, hc.symm]⟩

theorem dropWhile {p : Char → Bool} (hp : p '?' = false) (text : List Char) :
    Skips text (text.dropWhile p) := by
  refine ⟨text.takeWhile p, List.takeWhile_append_dropWhile.symm, fun h => ?_⟩
  have hmark := List.mem_takeWhile_imp h
  rw [hp] at hmark
  cases hmark

end Skips

section Numbers

private theorem digits_skips (text : List Char) : Skips text (text.dropWhile Char.isDigit) :=
  .dropWhile (by decide) text

private theorem fraction_skips (text : List Char) : Skips text (match text with
    | '.' :: digits => digits.dropWhile Char.isDigit
    | _ => text) := by
  split
  · exact .cons (by decide) (digits_skips _)
  · exact .refl _

private theorem sign_skips (text : List Char) : Skips text (match text with
    | '+' :: digits | '-' :: digits => digits
    | _ => text) := by
  split
  · exact .cons (by decide) (.refl _)
  · exact .cons (by decide) (.refl _)
  · exact .refl _

private theorem exponent_skips (text : List Char) : Skips text (match text with
    | 'e' :: exponent | 'E' :: exponent =>
      let digits := match exponent with
        | '+' :: digits | '-' :: digits => digits
        | _ => exponent
      if (digits.head?.map Char.isDigit).getD false then digits.dropWhile Char.isDigit else text
    | _ => text) := by
  have hexponent {c : Char} (hc : c ≠ '?') (exponent digits : List Char) (h : Skips exponent digits) :
      Skips (c :: exponent) (if (digits.head?.map Char.isDigit).getD false then
        digits.dropWhile Char.isDigit else c :: exponent) := by
    split
    · exact .cons hc (h.trans (digits_skips digits))
    · exact .refl _
  split
  · exact hexponent (by decide) _ _ (sign_skips _)
  · exact hexponent (by decide) _ _ (sign_skips _)
  · exact .refl _

private theorem length_skips (text : List Char) : Skips text (match text with
    | 'L' :: rest => rest
    | _ => text) := by
  split
  · exact .cons (by decide) (.refl _)
  · exact .refl _

/-- A number takes no question mark behind the digit or the point it starts with. -/
theorem afterNumber_skips {c : Char} (hc : (c.isDigit || decide (c = '.')) = true) (text : List Char) :
    Skips text (afterNumber (c :: text)) := by
  unfold afterNumber
  extract_lets rest
  have hrest : Skips text rest ∨ c = '.' ∧ rest = c :: text := by
    by_cases hdigit : c.isDigit = true
    · exact .inl (by simpa [rest, hdigit] using digits_skips text)
    · exact .inr ⟨by simpa [hdigit] using hc, by simp [rest, hdigit]⟩
  split
  next tail digits hlength _ hx =>
    rcases hrest with hrest | ⟨-, hrest⟩
    · exact (hx ▸ hrest).trans (.cons (by decide) (.dropWhile (by decide) digits))
    · simp [hrest] at hlength
  next fraction exponent _ _ _ _ =>
    have hfraction : Skips text fraction := by
      rcases hrest with hrest | ⟨rfl, hrest⟩
      · exact hrest.trans (fraction_skips rest)
      · simp only [fraction, hrest]
        exact digits_skips text
    split
    · exact hfraction
    · exact hfraction.trans ((exponent_skips fraction).trans (length_skips exponent))

end Numbers

/-- What a token takes behind its first character: the front of the rest, and no more than one character
if it is a placeholder. -/
def Takes (c : Char) (rest : List Char) (token : Token) (after : List Char) : Prop :=
  ∃ s, rest = s ++ after ∧ Part.Sound ⟨token, c :: s⟩ ∧ (token = .placeholder → after = rest.drop 1)

section Tokens

variable {c : Char} {rest after : List Char} {token : Token}

private theorem takes_enclosed (h : after <:+ rest)
    (htoken : token = .literal ∨ token = .quotedName ∨ token = .comment) : Takes c rest token after := by
  obtain ⟨s, rfl⟩ := h
  rcases htoken with rfl | rfl | rfl <;> exact ⟨s, rfl, trivial, nofun⟩

private theorem takes_close {problem : TokenProblem} {start : List Char} {found : Option (List Char)}
    {enclosed : Token} (h : close enclosed problem start found = .ok (token, after))
    (hfound : found = some after → after <:+ rest)
    (henclosed : enclosed = .literal ∨ enclosed = .quotedName ∨ enclosed = .comment) :
    Takes c rest token after := by
  cases found with
  | none => cases h
  | some found =>
    cases h
    exact takes_enclosed (hfound rfl) henclosed

private theorem takes_symbol (hc : c ≠ '?') (h : after <:+ rest) : Takes c rest .symbol after := by
  obtain ⟨s, rfl⟩ := h
  refine ⟨s, rfl, fun hmark => ?_, nofun⟩
  have hs : s ≠ [] := by
    rintro rfl
    simp [hc.symm] at hmark
  obtain ⟨d, s, rfl⟩ := List.exists_cons_of_ne_nil hs
  simp

private theorem takes_skips (hc : c ≠ '?') (h : Skips rest after)
    (htoken : token = .blank ∨ token = .word ∨ token = .number ∨ ∃ tag, token = .parameter tag) :
    Takes c rest token after := by
  obtain ⟨s, rfl, hs⟩ := h
  have hmark : '?' ∉ c :: s := by simp [hc.symm, hs]
  rcases htoken with rfl | rfl | rfl | ⟨tag, rfl⟩ <;> exact ⟨s, rfl, hmark, nofun⟩

private theorem takes_dollar (h : scanDollar rest = .ok (token, after)) : Takes '$' rest token after := by
  unfold scanDollar at h
  split at h
  next body =>
    refine takes_close h (fun hfound => ?_) (.inl rfl)
    exact (afterDollars_suffix hfound).trans (List.suffix_cons _ _)
  next =>
    extract_lets tag at h
    split at h
    next body hbody =>
      refine takes_close h (fun hfound => ?_) (.inl rfl)
      have hsuffix : '$' :: body <:+ rest := hbody ▸ List.dropWhile_suffix isTagChar
      exact (afterTag_suffix hfound).trans ((List.suffix_cons _ _).trans hsuffix)
    next =>
      cases h
      exact takes_skips (by decide) (.dropWhile (by decide) rest) (.inr (.inr (.inr ⟨_, rfl⟩)))

/-- The tokenizer takes the front of a text. -/
theorem scan_takes (h : scan c rest = .ok (token, after)) : Takes c rest token after := by
  fun_cases scan c rest with
  | case1 r =>
    cases h
    exact takes_skips (by decide) (.cons (by decide) (.refl _)) (.inl rfl)
  | case2 r | case3 r | case4 r | case5 r | case6 r | case7 r | case8 r | case9 r =>
    exact takes_close h (fun hfound => (afterQuote_suffix hfound).trans (List.suffix_cons _ _)) (.inl rfl)
  | case10 r | case11 r =>
    exact takes_close h (fun hfound => (afterEscapedString_suffix hfound).trans (List.suffix_cons _ _)) (.inl rfl)
  | case12 r | case13 r =>
    obtain ⟨found, hfound, hx⟩ := map_eq_ok.mp h
    cases hx
    refine takes_enclosed ?_ (.inl rfl)
    exact (afterUnicodeString_suffix hfound).trans ((List.suffix_cons _ _).trans (List.suffix_cons _ _))
  | case14 => exact takes_close h (fun hfound => afterQuote_suffix hfound) (.inl rfl)
  | case15 => exact takes_close h (fun hfound => afterQuote_suffix hfound) (.inr (.inl rfl))
  | case16 r =>
    cases h
    refine takes_enclosed ?_ (.inr (.inr rfl))
    exact (List.drop_suffix _ _).trans ((List.dropWhile_suffix _).trans (List.suffix_cons _ _))
  | case17 r =>
    exact takes_close h (fun hfound => (afterComment_suffix hfound).trans (List.suffix_cons _ _))
      (.inr (.inr rfl))
  | case18 r | case19 r =>
    cases h
    exact ⟨[_], rfl, fun _ => le_rfl, nofun⟩
  | case20 _ hbar hand =>
    rw [scan.eq_20 _ hbar hand] at h
    cases h
    exact ⟨rest.take 1, (List.take_append_drop 1 rest).symm, ⟨_, rfl, List.length_take_le 1 rest⟩, fun _ => rfl⟩
  | case21 => exact takes_dollar h
  | case22 _ _ hnumber =>
    rw [scan, if_pos hnumber] at h
    · cases h
      exact takes_skips ‹c = '?' → False› (afterNumber_skips hnumber rest) (.inr (.inr (.inl rfl)))
    all_goals assumption
  | case23 _ _ hnumber hword =>
    rw [scan, if_neg hnumber, if_pos hword] at h
    · cases h
      exact takes_skips ‹c = '?' → False› (.dropWhile (by decide) rest) (.inr (.inl rfl))
    all_goals assumption
  | case24 _ _ hnumber hword hblank =>
    rw [scan, if_neg hnumber, if_neg hword, if_pos hblank] at h
    · cases h
      exact takes_skips ‹c = '?' → False› (.refl rest) (.inl rfl)
    all_goals assumption
  | case25 _ _ hnumber hword hblank hrun =>
    rw [scan, if_neg hnumber, if_neg hword, if_neg hblank, if_pos hrun] at h
    · cases h
      exact takes_symbol ‹c = '?' → False› (List.dropWhile_suffix isOperatorChar)
    all_goals assumption
  | case26 _ _ hnumber hword hblank hrun =>
    rw [scan, if_neg hnumber, if_neg hword, if_neg hblank, if_neg hrun] at h
    · cases h
      exact takes_symbol ‹c = '?' → False› (afterFixedOperator_suffix c rest)
    all_goals assumption

end Tokens

/-- A placeholder is a question mark, and the tokenizer takes in the character behind it. -/
theorem scan_placeholder {c : Char} {rest after : List Char} (h : scan c rest = .ok (.placeholder, after)) :
    c = '?' ∧ after = rest.drop 1 := by
  obtain ⟨s, -, ⟨s', hs, -⟩, hafter⟩ := scan_takes h
  exact ⟨(List.cons.inj hs).1, hafter rfl⟩

abbrev Scanner := Char → List Char → Except ScanFault (Token × List Char)

/-- The tokenizer, kept from taking in the characters behind placeholders. -/
def scanAlone : Scanner := fun c rest =>
  (fun x => (x.1, if x.1 = .placeholder then rest else x.2)) <$> scan c rest

theorem scanAlone_placeholder {c : Char} {rest after : List Char}
    (h : scanAlone c rest = .ok (.placeholder, after)) :
    c = '?' ∧ after = rest ∧ scan c rest = .ok (.placeholder, rest.drop 1) := by
  obtain ⟨⟨token, after'⟩, hscan, hx⟩ := map_eq_ok.mp h
  obtain ⟨rfl, hafter⟩ := Prod.mk.inj hx
  obtain ⟨hc, rfl⟩ := scan_placeholder hscan
  exact ⟨hc, by simpa using hafter.symm, hscan⟩

theorem scanAlone_eq {c : Char} {rest after : List Char} {token : Token} (htoken : token ≠ .placeholder) :
    scanAlone c rest = .ok (token, after) ↔ scan c rest = .ok (token, after) := by
  constructor
  · intro h
    obtain ⟨⟨token', after'⟩, hscan, hx⟩ := map_eq_ok.mp h
    obtain ⟨rfl, hafter⟩ := Prod.mk.inj hx
    rw [hscan, ← hafter, if_neg htoken]
  · intro h
    simp only [scanAlone, h, ok_map, if_neg htoken]

def partsText (parts : List Part) : List Char := parts.flatMap Part.text

@[simp] theorem partsText_cons (p : Part) (parts : List Part) :
    partsText (p :: parts) = p.text ++ partsText parts := rfl

@[simp] theorem partsText_append (a b : List Part) : partsText (a ++ b) = partsText a ++ partsText b :=
  List.flatMap_append

/-- A scanner takes the parts one behind the other and comes to what is left. -/
inductive Cuts (scanner : Scanner) (left : List Char) : List Part → Prop
  | nil : Cuts scanner left []
  | cons {c : Char} {s : List Char} {token : Token} {parts : List Part}
      (hscan : scanner c (s ++ (partsText parts ++ left)) = .ok (token, partsText parts ++ left))
      (hparts : Cuts scanner left parts) : Cuts scanner left (⟨token, c :: s⟩ :: parts)

namespace Cuts

variable {scanner : Scanner} {left : List Char} {a b : List Part}

theorem append : Cuts scanner left (a ++ b) ↔ Cuts scanner (partsText b ++ left) a ∧ Cuts scanner left b := by
  constructor
  · intro h
    induction a with
    | nil => exact ⟨.nil, h⟩
    | cons p a ih =>
      cases h with
      | cons hscan hparts =>
        obtain ⟨ha, hb⟩ := ih hparts
        rw [List.append_eq, partsText_append, List.append_assoc] at hscan
        exact ⟨.cons hscan ha, hb⟩
  · rintro ⟨ha, hb⟩
    induction ha with
    | nil => exact hb
    | cons hscan _ ih =>
      refine .cons ?_ ih
      rwa [List.append_eq, partsText_append, List.append_assoc]

/-- The first part is what the scanner takes from the text. -/
theorem head {c : Char} {rest after : List Char} {token : Token} (h : Cuts scanner [] a)
    (htext : partsText a = c :: rest) (hscan : scanner c rest = .ok (token, after)) :
    ∃ s parts, a = ⟨token, c :: s⟩ :: parts ∧ rest = s ++ after ∧ partsText parts = after ∧
      Cuts scanner [] parts := by
  cases h with
  | nil => cases htext
  | @cons c' s token' parts hscan' hparts =>
    obtain ⟨rfl, rfl⟩ : c' = c ∧ s ++ partsText parts = rest := List.cons.inj htext
    rw [List.append_nil, hscan] at hscan'
    obtain ⟨rfl, rfl⟩ := Prod.mk.inj (Except.ok.inj hscan')
    exact ⟨s, parts, rfl, rfl, rfl, hparts⟩

/-- A scanner cuts a text in one way. -/
theorem unique (ha : Cuts scanner [] a) (hb : Cuts scanner [] b) (htext : partsText a = partsText b) :
    a = b := by
  induction ha generalizing b with
  | nil =>
    cases hb with
    | nil => rfl
    | cons => cases htext
  | cons hscan _ ih =>
    rw [List.append_nil] at hscan
    obtain ⟨s, parts, rfl, hs, hparts, hcuts⟩ := hb.head htext.symm hscan
    rw [List.append_cancel_right hs, ih hcuts hparts.symm]

end Cuts

/-- What the tokenizer takes is sound. -/
theorem Cuts.sound {left : List Char} {parts : List Part} (h : Cuts scan left parts) :
    ∀ p ∈ parts, p.Sound := by
  induction h with
  | nil => nofun
  | cons hscan _ ih =>
    obtain ⟨s, hs, hsound, -⟩ := scan_takes hscan
    rw [← List.append_cancel_right hs] at hsound
    exact List.forall_mem_cons.mpr ⟨hsound, ih⟩

/-- So is what it takes where a placeholder is a question mark alone. -/
theorem Cuts.sound_alone {left : List Char} {parts : List Part} (h : Cuts scanAlone left parts) :
    ∀ p ∈ parts, p.Sound ∧ (p.token = .placeholder → p.text = ['?']) := by
  induction h with
  | nil => nofun
  | @cons c s token _ hscan _ ih =>
    refine List.forall_mem_cons.mpr ⟨?_, ih⟩
    by_cases htoken : token = .placeholder
    · subst htoken
      obtain ⟨rfl, hrest, -⟩ := scanAlone_placeholder hscan
      have hs : s = [] := by simpa using hrest
      subst hs
      exact ⟨⟨[], rfl, by simp⟩, fun _ => rfl⟩
    · obtain ⟨s', hs, hsound, -⟩ := scan_takes ((scanAlone_eq htoken).mp hscan)
      rw [← List.append_cancel_right hs] at hsound
      exact ⟨hsound, fun hmark => absurd hmark htoken⟩

end TypedSql.Sql

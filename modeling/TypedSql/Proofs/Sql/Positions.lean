import TypedSql.Proofs.Sql.Marks

/-! Numbering relies on where the tokens are said to start. Whatever tokens these are, if they start at
positions of the text in increasing order, then each placeholder is found at its question mark. -/
namespace TypedSql.Sql
open Text

/-- A token that starts at a position of a text, counted from zero; placeholders start at question marks. -/
structure Lexeme.StartsAt (text : List Char) (x : Lexeme) (position : Nat) : Prop where
  within : position < text.length
  place : x.start = .ofPosition text (position + 1)
  mark : x.token = .placeholder → text[position]? = some '?'

/-- The tag of a numbered parameter. -/
def Lexeme.numbered? (x : Lexeme) : Option String :=
  match x.token with
  | .parameter tag => if isNumbered tag then some tag else none
  | _ => none

/-- The positions at which placeholders start. -/
def placeholderPositions (tokens : List Lexeme) (positions : List Nat) : List Nat :=
  ((tokens.zip positions).filter fun x => x.1.token = .placeholder).map Prod.snd

/-- The characters of a text that starts at position `index`, those at some positions as marks. -/
def markedFrom (marked : List Nat) (index : Nat) (text : List Char) : List Chunk :=
  (text.zipIdx index).map fun x => if x.2 ∈ marked then .mark else .plain [x.1]

section Marked

variable {marked : List Nat} {index : Nat} {c : Char} {rest : List Char}

theorem markedFrom_cons (marked : List Nat) (index : Nat) (c : Char) (rest : List Char) :
    markedFrom marked index (c :: rest) =
      (if index ∈ marked then .mark else .plain [c]) :: markedFrom marked (index + 1) rest := by
  simp [markedFrom]

/-- A position that was passed is no longer looked at. -/
theorem markedFrom_passed {position : Nat} (h : position < index) (text : List Char) :
    markedFrom (position :: marked) index text = markedFrom marked index text := by
  apply List.map_congr_left
  intro x hx
  have hle : index ≤ x.2 := List.le_snd_of_mem_zipIdx hx
  have hne : x.2 ≠ position := by omega
  simp [hne]

/-- Marks where there are question marks leave the text as it is. -/
theorem chunksText_markedFrom {text : List Char}
    (h : ∀ p ∈ marked, index ≤ p → ∀ d, text[p - index]? = some d → d = '?') :
    chunksText (markedFrom marked index text) = text := by
  induction text generalizing index with
  | nil => rfl
  | cons c rest ih =>
    have hrest : chunksText (markedFrom marked (index + 1) rest) = rest := by
      apply ih
      intro p hp hle d hd
      have hstep : p - index = p - (index + 1) + 1 := by omega
      apply h p hp (by omega) d
      rwa [hstep, List.getElem?_cons_succ]
    rw [markedFrom_cons, chunksText_cons, hrest]
    by_cases hmem : index ∈ marked
    · have hc : c = '?' := h index hmem (Nat.le_refl _) c (by simp)
      rw [if_pos hmem, hc]
      rfl
    · rw [if_neg hmem]
      rfl

/-- The marks are found at their positions. -/
theorem marksAt_markedFrom (front rest : List Char) (hsorted : marked.Pairwise (· < ·))
    (hfront : ∀ p ∈ marked, front.length ≤ p)
    (hmark : ∀ p ∈ marked, (front ++ rest)[p]? = some '?') :
    marksAt (Location.start.advanceAll front) (markedFrom marked front.length rest) =
      marked.map fun p => ⟨.placeholder, .ofPosition (front ++ rest) (p + 1)⟩ := by
  induction rest generalizing front marked with
  | nil =>
    cases marked with
    | nil => rfl
    | cons p marked =>
      have hle := hfront p List.mem_cons_self
      have hlt := (List.getElem?_eq_some_iff.mp (hmark p List.mem_cons_self)).1
      rw [List.append_nil] at hlt
      omega
  | cons c rest ih =>
    have hwhole : front ++ c :: rest = front ++ [c] ++ rest := by simp
    have hstep : (front ++ [c]).length = front.length + 1 := by simp
    have hplace : Location.start.advanceAll (front ++ [c]) = (Location.start.advanceAll front).advance c := by
      rw [Location.advanceAll_append]
      rfl
    rw [markedFrom_cons]
    by_cases hmem : front.length ∈ marked
    · cases marked with
      | nil => cases hmem
      | cons p later =>
        obtain ⟨hp, hlater⟩ := List.pairwise_cons.mp hsorted
        have hfirst : p = front.length := by
          rcases List.mem_cons.mp hmem with he | he
          · exact he.symm
          · have hlt := hp _ he
            have hle := hfront p List.mem_cons_self
            omega
        subst hfirst
        have hc : c = '?' := by simpa using hmark front.length List.mem_cons_self
        have hbehind : ∀ q ∈ later, (front ++ [c]).length ≤ q := fun q hq => hstep ▸ hp q hq
        have hrest := ih (front ++ [c]) hlater hbehind
          (fun q hq => hwhole ▸ hmark q (List.mem_cons_of_mem _ hq))
        have hhere : Location.start.advanceAll front = .ofPosition (front ++ c :: rest) (front.length + 1) := by
          simp [Location.ofPosition]
        rw [if_pos List.mem_cons_self, marksAt, markedFrom_passed (Nat.lt_add_one _), ← hc, ← hplace, ← hstep,
          hrest, List.map_cons, ← hwhole, ← hhere]
    · have hlater : ∀ p ∈ marked, (front ++ [c]).length ≤ p := by
        intro p hp
        have hle := hfront p hp
        have hne : p ≠ front.length := fun he => hmem (he ▸ hp)
        omega
      have hrest := ih (front ++ [c]) hsorted hlater (fun q hq => hwhole ▸ hmark q hq)
      rw [if_neg hmem, marksAt, Chunk.text, hwhole, ← hrest, hplace, hstep]
      · rfl
      · rintro ⟨⟩

end Marked

section Located

variable {text : List Char} {tokens : List Lexeme} {positions : List Nat}

theorem placeholderPositions_sublist (tokens : List Lexeme) (positions : List Nat) :
    (placeholderPositions tokens positions).Sublist positions := by
  induction tokens generalizing positions with
  | nil => exact List.nil_sublist _
  | cons x tokens ih =>
    cases positions with
    | nil => exact List.nil_sublist _
    | cons p positions =>
      by_cases hx : x.token = .placeholder
      · simpa [placeholderPositions, hx] using ih positions
      · simpa [placeholderPositions, hx] using (ih positions).cons p

/-- The placeholders among tokens start where they are said to. -/
theorem filter_placeholder (h : List.Forall₂ (Lexeme.StartsAt text) tokens positions) :
    tokens.filter (fun x => x.token = .placeholder) =
      (placeholderPositions tokens positions).map fun p => ⟨.placeholder, .ofPosition text (p + 1)⟩ := by
  induction h with
  | nil => rfl
  | @cons x p tokens positions hx _ ih =>
    obtain ⟨token, start⟩ := x
    obtain rfl : start = .ofPosition text (p + 1) := hx.place
    by_cases htoken : token = .placeholder
    · subst htoken
      simpa [placeholderPositions] using ih
    · simpa [placeholderPositions, htoken] using ih

theorem mem_placeholderPositions (h : List.Forall₂ (Lexeme.StartsAt text) tokens positions) :
    ∀ p ∈ placeholderPositions tokens positions, text[p]? = some '?' := by
  induction h with
  | nil => nofun
  | @cons x p tokens positions hx _ ih =>
    by_cases htoken : x.token = .placeholder
    · simpa [placeholderPositions, htoken] using And.intro (hx.mark htoken) ih
    · simpa [placeholderPositions, htoken] using ih

theorem chunksText_placeholders (h : List.Forall₂ (Lexeme.StartsAt text) tokens positions) :
    chunksText (markedFrom (placeholderPositions tokens positions) 0 text) = text := by
  apply chunksText_markedFrom
  intro p hp _ d hd
  have hmark := mem_placeholderPositions h p hp
  rw [Nat.sub_zero, hmark] at hd
  exact (Option.some.inj hd).symm

/-- Tokens without numbered parameters are numbered, each placeholder at its question mark. -/
theorem numberLexemes_unnumbered (h : List.Forall₂ (Lexeme.StartsAt text) tokens positions)
    (hsorted : positions.Pairwise (· < ·)) (hnumbered : ∀ x ∈ tokens, x.numbered? = none) :
    numberLexemes text tokens =
      .ok (numberedText 0 (markedFrom (placeholderPositions tokens positions) 0 text)) := by
  have hidle : ∀ x ∈ tokens, decide (x.token = .placeholder) = false → x.token.isIdle = true := by
    rintro ⟨token, start⟩ hx htoken
    have hnone := hnumbered _ hx
    cases token with
    | placeholder => cases htoken
    | parameter tag => simpa [Lexeme.numbered?, Token.isIdle] using hnone
    | _ => rfl
  have hmarks := marksAt_markedFrom [] text (hsorted.sublist (placeholderPositions_sublist tokens positions))
    (fun _ _ => Nat.zero_le _) (mem_placeholderPositions h)
  have hnumber := numberFrom_marksAt (markedFrom (placeholderPositions tokens positions) 0 text) [] [] 0
  rw [numberLexemes, numberFrom_filter text _ 0 0 text hidle, filter_placeholder h]
  simp only [List.nil_append, chunksText_placeholders h] at hnumber hmarks
  exact hmarks ▸ hnumber

end Located

/-- A numbered parameter behind tokens that are numbered without a problem is refused. -/
theorem numberFrom_refused {text out rest : List Char} {starts : List Nat} {cursor count : Nat}
    {before : List Lexeme} (h : numberFrom text starts cursor count rest before = .ok out)
    {x : Lexeme} {tag : String} (hx : x.numbered? = some tag) (behind : List Lexeme) :
    numberFrom text starts cursor count rest (before ++ x :: behind) = .error (.numbered tag) := by
  induction before generalizing cursor count rest out with
  | nil =>
    obtain ⟨token, start⟩ := x
    cases token with
    | parameter t =>
      obtain ⟨hnumbered, rfl⟩ : isNumbered t = true ∧ t = tag := by simpa [Lexeme.numbered?] using hx
      exact if_pos hnumbered
    | _ => cases hx
  | cons y before ih =>
    obtain ⟨token, start⟩ := y
    cases token with
    | placeholder =>
      rw [List.cons_append, numberFrom]
      rw [numberFrom] at h
      split at h
      case h_1 => cases h
      case h_2 =>
        obtain ⟨copied, hcopied, -⟩ := map_eq_ok.mp h
        exact congrArg (_ <$> ·) (ih hcopied)
    | parameter t =>
      rw [List.cons_append, numberFrom]
      rw [numberFrom] at h
      split at h
      case isTrue => cases h
      case isFalse hnumbered =>
        rw [if_neg hnumbered]
        exact ih h
    | _ => exact ih h

/-- Tokens that start at increasing positions of a text are always located. The first numbered parameter
among them is refused; without one, exactly the question marks at which placeholders start are replaced, by
`$1`, `$2`, ... from left to right. -/
theorem numberLexemes_located {text : List Char} {tokens : List Lexeme} {positions : List Nat}
    (hstarts : List.Forall₂ (Lexeme.StartsAt text) tokens positions) (hsorted : positions.Pairwise (· < ·)) :
    let chunks := markedFrom (placeholderPositions tokens positions) 0 text
    (∀ l, numberLexemes text tokens ≠ .error (.unlocated l)) ∧ chunksText chunks = text ∧
      numberLexemes text tokens =
        match tokens.findSome? Lexeme.numbered? with
        | some tag => .error (.numbered tag)
        | none => .ok (numberedText 0 chunks) := by
  intro chunks
  have hnumber : numberLexemes text tokens =
      match tokens.findSome? Lexeme.numbered? with
      | some tag => .error (.numbered tag)
      | none => .ok (numberedText 0 chunks) := by
    cases hfirst : tokens.findSome? Lexeme.numbered? with
    | none => exact numberLexemes_unnumbered hstarts hsorted (List.findSome?_eq_none_iff.mp hfirst)
    | some tag =>
      obtain ⟨before, x, behind, rfl, hx, hbefore⟩ := List.findSome?_eq_some_iff.mp hfirst
      have hfront := List.forall₂_take before.length hstarts
      rw [List.take_left] at hfront
      exact numberFrom_refused (numberLexemes_unnumbered hfront (hsorted.sublist (List.take_sublist _ _)) hbefore)
        hx behind
  refine ⟨fun l hl => ?_, chunksText_placeholders hstarts, hnumber⟩
  rw [hnumber] at hl
  split at hl <;> cases hl

/-- Two placeholders on two lines, a question mark in a literal between them. -/
theorem numberLexemes_located_lines :
    numberLexemes "ü ?\n'é?', ?".toList
        [⟨.word, ⟨1, 1⟩⟩, ⟨.placeholder, ⟨1, 3⟩⟩, ⟨.literal, ⟨2, 1⟩⟩, ⟨.placeholder, ⟨2, 7⟩⟩] =
      .ok "ü $1\n'é?', $2".toList := by
  have hstarts : List.Forall₂ (Lexeme.StartsAt "ü ?\n'é?', ?".toList)
      [⟨.word, ⟨1, 1⟩⟩, ⟨.placeholder, ⟨1, 3⟩⟩, ⟨.literal, ⟨2, 1⟩⟩, ⟨.placeholder, ⟨2, 7⟩⟩] [0, 2, 4, 10] :=
    .cons ⟨by decide, by decide, by decide⟩ <| .cons ⟨by decide, by decide, by decide⟩ <|
      .cons ⟨by decide, by decide, by decide⟩ <| .cons ⟨by decide, by decide, by decide⟩ .nil
  have hsorted : [0, 2, 4, 10].Pairwise (· < ·) := by decide
  exact (numberLexemes_located hstarts hsorted).2.2

end TypedSql.Sql

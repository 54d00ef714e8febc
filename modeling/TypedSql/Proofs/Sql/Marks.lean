import TypedSql.Proofs.Sql.Chunks
import TypedSql.Proofs.Text.Position
import Mathlib.Data.List.Chain
import TypedSql.Sql.Placeholder

/-! In a text of chunks that are kept apart, numbering replaces each placeholder by the next number and
leaves everything else as it is. -/
namespace TypedSql.Sql
open Text

/-- Chunks the tokenizer can take one by one: each is sound, and gaps keep them apart. -/
structure Tidy (chunks : List Chunk) : Prop where
  sound : ∀ c ∈ chunks, c.sound = true
  apart : chunks.IsChain Chunk.Apart

def chunksText (chunks : List Chunk) : List Char := chunks.flatMap Chunk.text

/-- The text with its placeholders numbered above `count`. -/
def numberedText (count : Nat) : List Chunk → List Char
  | [] => []
  | .mark :: rest => numberText (count + 1) ++ numberedText (count + 1) rest
  | c :: rest => c.text ++ numberedText count rest

/-- Whether a token stands for a parameter. -/
def Token.isMark : Token → Bool
  | placeholder | parameter _ => true
  | _ => false

def marks (tokens : List Lexeme) : List Lexeme := tokens.filter fun x => x.token.isMark

/-- The placeholders of a text that starts at `l`. -/
def marksAt (l : Location) : List Chunk → List Lexeme
  | [] => []
  | .mark :: rest => ⟨.placeholder, l⟩ :: marksAt (l.advance '?') rest
  | c :: rest => marksAt (l.advanceAll c.text) rest

theorem Tidy.tail {c : Chunk} {rest : List Chunk} (h : Tidy (c :: rest)) : Tidy rest :=
  ⟨fun d hd => h.sound d (List.mem_cons_of_mem c hd), h.apart.tail⟩

@[simp] theorem chunksText_cons (c : Chunk) (rest : List Chunk) :
    chunksText (c :: rest) = c.text ++ chunksText rest := rfl

private theorem lexemesFrom_skip (l : Location) (s rest : List Char) :
    lexemesFrom l s.length (s ++ rest) = lexemesFrom (l.advanceAll s) 0 rest := by
  induction s generalizing l with
  | nil => rfl
  | cons c s ih => exact ih (l.advance c)

theorem lexemesFrom_scan {c : Char} {s rest : List Char} {token : Token}
    (h : scan c (s ++ rest) = .ok (token, rest)) (l : Location) :
    lexemesFrom l 0 (c :: s ++ rest) =
      (⟨token, l⟩ :: ·) <$> lexemesFrom (l.advanceAll (c :: s)) 0 rest := by
  have hlength : (s ++ rest).length - rest.length = s.length := by simp
  rw [List.cons_append, lexemesFrom, h]
  simp only [hlength, lexemesFrom_skip]
  rfl

/-- A text that is passed over before `rest` without a mark. -/
def Quiet (s rest : List Char) : Prop :=
  ∀ l, marks <$> lexemesFrom l 0 (s ++ rest) = marks <$> lexemesFrom (l.advanceAll s) 0 rest

private theorem quiet_scan {c : Char} {s rest : List Char} {token : Token}
    (h : scan c (s ++ rest) = .ok (token, rest)) (ht : token.isMark = false) : Quiet (c :: s) rest := by
  intro l
  rw [lexemesFrom_scan h]
  cases lexemesFrom (l.advanceAll (c :: s)) 0 rest with
  | error x => rfl
  | ok tokens => simp [marks, ht]

private theorem quiet_gap {c : Char} (hc : c ∈ Chunk.gaps) {rest : List Char}
    (hdigit : ∀ d ∈ rest.head?, d.isDigit = false) : Quiet [c] rest := by
  have hgaps : ∀ c ∈ Chunk.gaps, c = ' ' ∨ c = '.' ∨ c ∈ "(),[]+*".toList :=
    forall_mem_of_all (by decide)
  rcases hgaps c hc with rfl | rfl | hsymbol
  · exact quiet_scan (s := []) (scan_blank rest) rfl
  · exact quiet_scan (s := []) (scan_dot hdigit) rfl
  · exact quiet_scan (s := []) (scan_symbol hsymbol rest) rfl

/-- A sound chunk is passed over unless it is a placeholder, if what follows keeps away from it. -/
private theorem quiet_chunk {c : Chunk} (hsound : c.sound = true) (hmark : c ≠ .mark) {rest : List Char}
    (hdigit : ∀ d ∈ rest.head?, d.isDigit = false) (hrest : c.isGap = true ∨ Breaks rest) :
    Quiet c.text rest := by
  by_cases hgap : c.isGap = true
  · obtain ⟨d, hd, rfl⟩ := Chunk.gap_text hgap
    exact quiet_gap hd hdigit
  · have hbreaks := hrest.resolve_left hgap
    cases c with
    | mark => exact absurd rfl hmark
    | quoted name =>
      obtain ⟨s, hs, hscan⟩ := scan_quoted name hbreaks
      rw [Chunk.text, hs]
      exact quiet_scan hscan rfl
    | plain s =>
      rcases Chunk.sound_plain hsound with ⟨d, hd, rfl⟩ | ⟨d, r, rfl, hd, hr⟩ | ⟨d, r, rfl, hr⟩ | ⟨d, hd, rfl⟩
      · exact quiet_gap hd hdigit
      · exact quiet_scan (scan_word hd hr hbreaks) rfl
      · exact quiet_scan (scan_run hr hbreaks) rfl
      · exact quiet_scan (s := []) (scan_fixed hd hbreaks) rfl

private theorem head_text {c : Chunk} (h : c.sound = true) :
    ∃ d s, c.text = d :: s ∧ d.isDigit = false := by
  cases c with
  | mark => exact ⟨'?', [], rfl, rfl⟩
  | quoted name => exact ⟨'"', _, rfl, rfl⟩
  | plain s =>
    have hdigit : ∀ d ∈ Chunk.gaps ++ Chunk.fixedSigns ++ "-|<>".toList, d.isDigit = false :=
      forall_mem_of_all (by decide)
    rcases Chunk.sound_plain h with ⟨d, hd, rfl⟩ | ⟨d, r, rfl, hd, -⟩ | ⟨d, r, rfl, hr⟩ | ⟨d, hd, rfl⟩
    · exact ⟨d, [], rfl, hdigit d (by simp [hd])⟩
    · exact ⟨d, r, rfl, isDigit_of_wordStart hd⟩
    · exact ⟨d, r, rfl, hdigit d (List.mem_append_right _ (Chunk.head_of_run hr))⟩
    · exact ⟨d, [], rfl, hdigit d (by simp [hd])⟩

private theorem head_chunksText {chunks : List Chunk} (h : ∀ c ∈ chunks, c.sound = true) :
    ∀ d ∈ (chunksText chunks).head?, d.isDigit = false := by
  intro d hd
  cases chunks with
  | nil => cases hd
  | cons c rest =>
    obtain ⟨e, s, hs, hdigit⟩ := head_text (h c List.mem_cons_self)
    rw [chunksText_cons, hs] at hd
    cases hd
    exact hdigit

theorem Tidy.breaks {c : Chunk} {rest : List Chunk} (h : Tidy (c :: rest)) :
    c.isGap = true ∨ Breaks (chunksText rest) := by
  cases rest with
  | nil => exact .inr nofun
  | cons d rest =>
    refine (List.isChain_cons_cons.mp h.apart).1.imp_right fun hgap => ?_
    obtain ⟨e, he, rfl⟩ := Chunk.gap_text hgap
    intro x hx
    cases hx
    exact he

private theorem lexemesFrom_mark {rest : List Char} (hrest : Breaks rest)
    (hquiet : ∀ c s, rest = c :: s → Quiet [c] s) (l : Location) :
    marks <$> lexemesFrom l 0 ('?' :: rest) =
      (⟨.placeholder, l⟩ :: ·) <$> marks <$> lexemesFrom (l.advance '?') 0 rest := by
  cases rest with
  | nil => rfl
  | cons c s =>
    have hscan : scan '?' ([c] ++ s) = .ok (.placeholder, s) := by
      have hc := hrest c rfl
      rw [scan]
      · rfl
      · rintro r h
        cases h
        exact absurd hc (by decide)
      · rintro r h
        cases h
        exact absurd hc (by decide)
    have hnext := hquiet c s rfl (l.advance '?')
    rw [List.singleton_append] at hnext
    have hplace : l.advanceAll ['?', c] = (l.advance '?').advanceAll [c] := rfl
    rw [hnext]
    refine (congrArg (marks <$> ·) (lexemesFrom_scan hscan l)).trans ?_
    rw [hplace]
    cases lexemesFrom ((l.advance '?').advanceAll [c]) 0 s with
    | error x => rfl
    | ok tokens => rfl

/-- The tokenizer finds exactly the placeholders of a tidy text. -/
theorem Tidy.marks_eq {chunks : List Chunk} (h : Tidy chunks) (l : Location) :
    marks <$> lexemesFrom l 0 (chunksText chunks) = .ok (marksAt l chunks) := by
  induction chunks generalizing l with
  | nil => rfl
  | cons c rest ih =>
    by_cases hc : c = .mark
    · subst hc
      have hbreaks := h.breaks.resolve_left nofun
      have hquiet (d : Char) (s : List Char) (hs : chunksText rest = d :: s) : Quiet [d] s := by
        cases rest with
        | nil => cases hs
        | cons e rest =>
          have hgap := (List.isChain_cons_cons.mp h.apart).1.resolve_left nofun
          obtain ⟨f, hf, rfl⟩ := Chunk.gap_text hgap
          cases hs
          exact quiet_gap hf (head_chunksText h.tail.tail.sound)
      rw [chunksText_cons, Chunk.text, List.singleton_append, lexemesFrom_mark hbreaks hquiet,
        ih h.tail]
      rfl
    · have hquiet := quiet_chunk (h.sound c List.mem_cons_self) hc (head_chunksText h.tail.sound) h.breaks
      rw [chunksText_cons, hquiet l, ih h.tail, marksAt]
      exact hc

/-- Whether numbering neither counts a token nor refuses it. -/
def Token.isIdle : Token → Bool
  | placeholder => false
  | parameter tag => !isNumbered tag
  | _ => true

theorem Token.isIdle_of_isMark {t : Token} (h : t.isMark = false) : t.isIdle = true := by
  cases t with
  | placeholder | parameter => cases h
  | _ => rfl

/-- Numbering looks only at tokens that are not idle. -/
theorem numberFrom_filter {keep : Lexeme → Bool} (text : List Char) (starts : List Nat)
    (cursor count : Nat) (rest : List Char) {tokens : List Lexeme}
    (hkeep : ∀ x ∈ tokens, keep x = false → x.token.isIdle = true) :
    numberFrom text starts cursor count rest tokens =
      numberFrom text starts cursor count rest (tokens.filter keep) := by
  induction tokens generalizing cursor count rest with
  | nil => rfl
  | cons x tokens ih =>
    obtain ⟨hx, htokens⟩ := List.forall_mem_cons.mp hkeep
    have hnext (cursor count : Nat) (rest : List Char) := ih cursor count rest htokens
    obtain ⟨token, start⟩ := x
    cases hkept : keep ⟨token, start⟩ with
    | false =>
      rw [List.filter_cons_of_neg (by simp [hkept]), ← hnext]
      cases token with
      | placeholder => cases hx hkept
      | parameter tag =>
        have htag : isNumbered tag = false := by simpa [Token.isIdle] using hx hkept
        rw [numberFrom, htag]
        rfl
      | _ =>
        rw [numberFrom]
        all_goals nofun
    | true =>
      rw [List.filter_cons_of_pos hkept]
      cases token with
      | placeholder => simp only [numberFrom, hnext]
      | parameter tag => rw [numberFrom, numberFrom, hnext]
      | _ =>
        rw [numberFrom, numberFrom, hnext]
        all_goals nofun

/-- The text behind `front` is copied, each placeholder in it replaced by the next number. -/
theorem numberFrom_marksAt (chunks : List Chunk) (front copied : List Char) (count : Nat) :
    let text := front ++ copied ++ chunksText chunks
    numberFrom text (lineStarts text) (byteLength front) count (copied ++ chunksText chunks)
        (marksAt (Location.start.advanceAll (front ++ copied)) chunks) =
      .ok (copied ++ numberedText count chunks) := by
  induction chunks generalizing front copied count with
  | nil => rfl
  | cons c rest ih =>
    by_cases hc : c = .mark
    · subst hc
      have hoffset := byteOffset_advanceAll (front ++ copied) ('?' :: chunksText rest) (by simp)
      have hsplit := splitAtByte_append copied ('?' :: chunksText rest)
      have hcursor : byteLength (front ++ copied) - byteLength front = byteLength copied := by simp
      have hle : byteLength front ≤ byteLength (front ++ copied) := by simp
      have hnext := ih (front ++ copied ++ ['?']) [] (count + 1)
      have hstep : byteLength (front ++ (copied ++ ['?'])) = byteLength (front ++ copied) + 1 := by
        rw [← List.append_assoc, byteLength_append]
        rfl
      have hplace : Location.start.advanceAll (front ++ (copied ++ ['?'])) =
          (Location.start.advanceAll (front ++ copied)).advance '?' := by
        rw [← List.append_assoc, Location.advanceAll_append]
        rfl
      simp only [List.append_nil, List.nil_append, List.append_assoc, List.singleton_append] at hnext hoffset
      rw [hstep, hplace] at hnext
      simp only [chunksText_cons, Chunk.text, List.singleton_append, List.append_assoc, marksAt, numberFrom,
        hoffset, hcursor, hsplit, Option.bind_eq_bind, Option.bind_some, if_pos hle, numberedText]
      rw [hnext]
      rfl
    · have hnext := ih front (copied ++ c.text) count
      have hplace : Location.start.advanceAll (front ++ (copied ++ c.text)) =
          (Location.start.advanceAll (front ++ copied)).advanceAll c.text := by
        rw [← List.append_assoc, Location.advanceAll_append]
      have hmarks (l : Location) : marksAt l (c :: rest) = marksAt (l.advanceAll c.text) rest :=
        marksAt.eq_3 l c rest hc
      have htext : numberedText count (c :: rest) = c.text ++ numberedText count rest :=
        numberedText.eq_3 count c rest hc
      rw [hplace] at hnext
      simpa [hmarks, htext] using hnext

/-- Numbering the text of tidy chunks succeeds and replaces the placeholders in their order. -/
theorem Tidy.numberPlaceholders_eq {chunks : List Chunk} (h : Tidy chunks) :
    numberPlaceholders (String.ofList (chunksText chunks)) =
      .ok (String.ofList (numberedText 0 chunks)) := by
  obtain ⟨tokens, htokens, hmarks⟩ := map_eq_ok.mp (h.marks_eq .start)
  have hnumber : numberLexemes (chunksText chunks) tokens = .ok (numberedText 0 chunks) := by
    rw [numberLexemes, numberFrom_filter _ _ _ _ _ fun x _ => Token.isIdle_of_isMark, ← marks, hmarks]
    exact numberFrom_marksAt chunks [] [] 0
  have hlexemes : lexemes (chunksText chunks) = .ok tokens := htokens
  simp only [numberPlaceholders, String.toList_ofList, hlexemes, hnumber]

end TypedSql.Sql

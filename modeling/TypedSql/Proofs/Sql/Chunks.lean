import TypedSql.Proofs.Outcome
import TypedSql.Sql.Identifier
import TypedSql.Sql.Token.Scan

/-! Chunks of a text that the tokenizer keeps apart: words, names between quotes, operators,
placeholders, and the gaps between them. -/
namespace TypedSql.Sql
open Text

inductive Chunk where
  | plain (s : List Char)
  | quoted (name : List Char)
  | mark
  deriving DecidableEq

/-- A property of every character of a list may be tested one by one. -/
theorem forall_mem_of_all {l : List Char} {p : Char → Prop} [DecidablePred p]
    (h : (l.all fun c => p c) = true) : ∀ c ∈ l, p c := by
  simpa using h

namespace Chunk

def text : Chunk → List Char
  | plain s => s
  | quoted name => quoteName name
  | mark => ['?']

/-- The characters that keep other chunks apart. -/
def gaps : List Char := " (),.[]".toList

def isGap : Chunk → Bool
  | plain [c] => gaps.contains c
  | _ => false

/-- Whether a text is one word; the words of every script count, not only those of the writer. -/
def isWord : List Char → Bool
  | [] => false
  | c :: rest => isWordStart c && rest.all isWordChar

/-- Operators of one character that the tokenizer does not extend on its own. -/
def fixedSigns : List Char := "=+*/".toList

/-- Operators that begin a run of operator characters. -/
def isRun : List Char → Bool
  | '-' :: rest => rest.isEmpty
  | c :: rest => "|<>".toList.contains c && rest.all isOperatorChar
  | [] => false

/-- A gap, a word or an operator; names and placeholders as they are. -/
def sound : Chunk → Bool
  | plain s => isGap (plain s) || isWord s || isRun s || fixedSigns.any fun c => s = [c]
  | _ => true

theorem gap_text {c : Chunk} (h : c.isGap = true) : ∃ d ∈ gaps, c = plain [d] := by
  unfold isGap at h
  split at h
  · exact ⟨_, by simpa using h, rfl⟩
  · cases h

/-- What a sound piece of plain text can be. -/
theorem sound_plain {s : List Char} (h : (plain s).sound = true) :
    (∃ d ∈ gaps, s = [d]) ∨ (∃ d r, s = d :: r ∧ isWordStart d = true ∧ r.all isWordChar = true) ∨
      (∃ d r, s = d :: r ∧ isRun (d :: r) = true) ∨ ∃ d ∈ fixedSigns, s = [d] := by
  simp only [sound, Bool.or_eq_true] at h
  rcases h with ((hgap | hword) | hrun) | hfixed
  · obtain ⟨d, hd, hs⟩ := gap_text hgap
    cases hs
    exact .inl ⟨d, hd, rfl⟩
  · cases s with
    | nil => cases hword
    | cons d r => exact .inr (.inl ⟨d, r, rfl, Bool.and_eq_true_iff.mp hword⟩)
  · cases s with
    | nil => cases hrun
    | cons d r => exact .inr (.inr (.inl ⟨d, r, rfl, hrun⟩))
  · obtain ⟨d, hd, hs⟩ := List.any_eq_true.mp hfixed
    exact .inr (.inr (.inr ⟨d, hd, by simpa using hs⟩))

theorem head_of_run {d : Char} {r : List Char} (h : isRun (d :: r) = true) : d ∈ "-|<>".toList := by
  unfold isRun at h
  split at h
  · rename_i heq
    cases heq
    decide
  · rename_i heq
    cases heq
    obtain ⟨hd, -⟩ := Bool.and_eq_true_iff.mp h
    have hmem : ∀ d ∈ "|<>".toList, d ∈ "-|<>".toList := forall_mem_of_all (by decide)
    exact hmem d (by simpa using hd)
  · cases h

/-- One of two neighbours is a gap. -/
abbrev Apart (a b : Chunk) : Prop := a.isGap = true ∨ b.isGap = true

end Chunk

/-- Nothing, or a gap. -/
def Breaks (rest : List Char) : Prop := ∀ c ∈ rest.head?, c ∈ Chunk.gaps

private theorem Breaks.ne_cons {rest : List Char} (h : Breaks rest) {c : Char} (hc : c ∉ Chunk.gaps)
    (r : List Char) : rest ≠ c :: r := by
  rintro rfl
  exact hc (h c rfl)

private theorem Breaks.dropWhile {rest : List Char} (h : Breaks rest) {p : Char → Bool}
    (hp : ∀ c ∈ Chunk.gaps, p c = false) : rest.dropWhile p = rest := by
  cases rest with
  | nil => rfl
  | cons c rest => rw [List.dropWhile_cons_of_neg (by simp [hp c (h c rfl)])]

private theorem dropWhile_append {p : Char → Bool} {s rest : List Char} (hs : s.all p = true)
    (hrest : rest.dropWhile p = rest) : (s ++ rest).dropWhile p = rest := by
  rw [List.dropWhile_append_of_pos (by simpa using hs), hrest]

theorem isDigit_of_wordStart {c : Char} (hc : isWordStart c = true) : c.isDigit = false := by
  cases hd : c.isDigit with
  | false => rfl
  | true =>
    simp only [isWordStart, isLetter] at hc
    delta Char.isDigit at hd
    delta Char.isAlpha Char.isUpper Char.isLower at hc
    simp only [Bool.and_eq_true, Bool.or_eq_true, decide_eq_true_eq, Char.toNat,
      UInt32.le_iff_toNat_le] at hd hc
    rcases hc with ((h | h) | h) | rfl
    · simp at h hd; omega
    · simp at h hd; omega
    · simp at h hd; omega
    · simp at hd

/-- A word reaches as far as its characters do. -/
theorem scan_word {c : Char} {s rest : List Char} (hc : isWordStart c = true)
    (hs : s.all isWordChar = true) (hrest : Breaks rest) : scan c (s ++ rest) = .ok (.word, rest) := by
  have hdot : c ≠ '.' := by rintro rfl; exact absurd hc (by decide)
  have hhead : ∀ d ∈ (s ++ rest).head?, d ∉ ['\'', '"', '&'] := by
    intro d hd
    cases s with
    | nil =>
      have hgap : ∀ d ∈ Chunk.gaps, d ∉ ['\'', '"', '&'] := forall_mem_of_all (by decide)
      exact hgap d (hrest d hd)
    | cons e s =>
      cases hd
      rintro hmem
      have hquote : ∀ d ∈ ['\'', '"', '&'], isWordChar d = false := forall_mem_of_all (by decide)
      rw [List.all_cons, hquote d hmem] at hs
      cases hs
  have hgap : ∀ d ∈ Chunk.gaps, isWordChar d = false := forall_mem_of_all (by decide)
  have hdrop := dropWhile_append hs (hrest.dropWhile hgap)
  generalize s ++ rest = r at hhead hdrop
  unfold scan
  split
  all_goals first
    | exact absurd hc (by decide)
    | exact absurd (hhead _ rfl) (by decide)
    | simp [isDigit_of_wordStart hc, hdot, hc, hdrop]

theorem scan_blank (rest : List Char) : scan ' ' rest = .ok (.blank, rest) := by
  have hword : isWordStart ' ' = false := by decide
  have hblank : isBlank ' ' = true := by decide
  rw [scan] <;> simp [hword, hblank]

/-- A point that begins no number stands alone. -/
theorem scan_dot {rest : List Char} (hrest : ∀ c ∈ rest.head?, c.isDigit = false) :
    scan '.' rest = .ok (.number, rest) := by
  have hdrop : rest.dropWhile Char.isDigit = rest := by
    cases rest with
    | nil => rfl
    | cons c rest => rw [List.dropWhile_cons_of_neg (by simp [hrest c rfl])]
  have hnumber : afterNumber ('.' :: rest) = rest := by
    unfold afterNumber
    simp [hdrop]
  rw [scan] <;> simp [hnumber]

theorem scan_symbol {c : Char} (hc : c ∈ "(),[]+*".toList) (rest : List Char) :
    scan c rest = .ok (.symbol, rest) := by
  have hmem : c = '(' ∨ c = ')' ∨ c = ',' ∨ c = '[' ∨ c = ']' ∨ c = '+' ∨ c = '*' := by simpa using hc
  have hword : isWordStart c = false := by rcases hmem with rfl | rfl | rfl | rfl | rfl | rfl | rfl <;> decide
  have hblank : isBlank c = false := by rcases hmem with rfl | rfl | rfl | rfl | rfl | rfl | rfl <;> decide
  rcases hmem with rfl | rfl | rfl | rfl | rfl | rfl | rfl <;>
    rw [scan] <;> simp [hword, hblank, afterFixedOperator]

theorem scan_fixed {c : Char} (hc : c ∈ Chunk.fixedSigns) {rest : List Char}
    (hrest : Breaks rest) : scan c rest = .ok (.symbol, rest) := by
  have hstar := hrest.ne_cons (c := '*') (by decide)
  have heq := hrest.ne_cons (c := '=') (by decide)
  have hgt := hrest.ne_cons (c := '>') (by decide)
  have hmem : c = '=' ∨ c = '+' ∨ c = '*' ∨ c = '/' := by
    simpa [Chunk.fixedSigns] using hc
  have hword : isWordStart c = false := by rcases hmem with rfl | rfl | rfl | rfl <;> decide
  have hblank : isBlank c = false := by rcases hmem with rfl | rfl | rfl | rfl <;> decide
  have hafter : afterFixedOperator c rest = rest := by
    unfold afterFixedOperator
    split <;> simp_all
  rcases hmem with rfl | rfl | rfl | rfl <;> rw [scan] <;> simp [hword, hblank, hafter]
  exact hstar

theorem scan_run {c : Char} {s rest : List Char} (hs : Chunk.isRun (c :: s) = true)
    (hrest : Breaks rest) : scan c (s ++ rest) = .ok (.symbol, rest) := by
  have hdrop : rest.dropWhile isOperatorChar = rest := hrest.dropWhile (forall_mem_of_all (by decide))
  by_cases hminus : c = '-'
  · subst hminus
    obtain rfl : s = [] := by simpa [Chunk.isRun] using hs
    have hword : isWordStart '-' = false := by decide
    have hblank : isBlank '-' = false := by decide
    have hne := hrest.ne_cons (c := '-') (by decide)
    rw [List.nil_append, scan] <;> simp [hword, hblank, hdrop, hne]
  · have hrun : ("|<>".toList.contains c && s.all isOperatorChar) = true := by
      rw [Chunk.isRun] at hs
      · exact hs
      · exact hminus
    obtain ⟨hc, hall⟩ := Bool.and_eq_true_iff.mp hrun
    have hmem : c = '|' ∨ c = '<' ∨ c = '>' := by simpa using hc
    have hword : isWordStart c = false := by rcases hmem with rfl | rfl | rfl <;> decide
    have hblank : isBlank c = false := by rcases hmem with rfl | rfl | rfl <;> decide
    have hafter := dropWhile_append hall hdrop
    rcases hmem with rfl | rfl | rfl <;> rw [scan] <;> simp [hword, hblank, hafter]

private theorem afterQuote_doubled (name rest : List Char) (hrest : rest.head? ≠ some '"') :
    afterQuote '"' false (name.flatMap (fun c => if c = '"' then ['"', '"'] else [c]) ++ '"' :: rest) =
      some rest := by
  induction name with
  | nil =>
    cases rest with
    | nil => rfl
    | cons d rest =>
      have hd : d ≠ '"' := fun h => hrest (congrArg some h)
      simp [afterQuote, hd]
  | cons c name ih =>
    by_cases hc : c = '"'
    · simpa [hc, afterQuote] using ih
    · rw [List.flatMap_cons, if_neg hc, List.append_assoc, List.singleton_append]
      generalize htail : name.flatMap _ ++ '"' :: rest = tail at ih
      cases tail with
      | nil => simp at htail
      | cons d tail => simpa [afterQuote, hc] using ih

theorem scan_quoted (name : List Char) {rest : List Char} (hrest : Breaks rest) :
    ∃ s, quoteName name = '"' :: s ∧ scan '"' (s ++ rest) = .ok (.quotedName, rest) := by
  refine ⟨name.flatMap (fun c => if c = '"' then ['"', '"'] else [c]) ++ ['"'], rfl, ?_⟩
  have hhead : rest.head? ≠ some '"' := by
    intro h
    exact absurd (hrest '"' h) (by decide)
  have hafter := afterQuote_doubled name rest hhead
  rw [List.append_assoc, List.singleton_append, scan]
  · rw [hafter]; rfl

end TypedSql.Sql

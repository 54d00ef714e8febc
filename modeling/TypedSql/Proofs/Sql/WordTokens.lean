import TypedSql.Proofs.Sql.Names
import TypedSql.Proofs.Sql.Spacing

/-! Tokens of a text read from left to right: words, names between quotes, operators, punctuation and
placeholders. The text of chunks that are kept apart is read chunk by chunk. -/
namespace TypedSql.Sql
open TextToken (isNameStart isNameChar)

/-- A token of a text. -/
inductive WordToken where
  /-- Letters without quotes, in lower case. -/
  | bare (word : String)
  | quoted (name : String)
  /-- An operator or a mark of punctuation. -/
  | sign (spelling : String)
  | placeholder
  deriving DecidableEq, Repr

namespace WordToken

def ofRun (run : List Char) : WordToken :=
  if run.head?.any isNameStart then bare (String.ofList (run.map Char.toLower)) else sign (String.ofList run)

/-- The first token of a text and the text behind it. Signs that stand together are one operator, and no text
begins with signs that are none: two minus signs would be a comment. -/
def first : List Char → Option (WordToken × List Char)
  | [] => none
  | c :: rest =>
    if c = '?' then some (placeholder, rest)
    else if c = '"' then
      (TextToken.quoted rest).map fun (name, behind) => (quoted (String.ofList name), behind)
    else if isNameStart c then some (ofRun (c :: rest.takeWhile isNameChar), rest.dropWhile isNameChar)
    else if Word.isSign c then
      let signs := c :: rest.takeWhile Word.isSign
      if (Word.spellings.lookup (String.ofList signs)).isSome then
        some (ofRun signs, rest.dropWhile Word.isSign)
      else none
    else if "(),.[]".toList.contains c then some (ofRun [c], rest)
    else none

theorem quoted_shorter {text name behind : List Char} (h : TextToken.quoted text = some (name, behind)) :
    behind.length < text.length := by
  fun_induction TextToken.quoted text generalizing name behind with
  | case1 => cases h
  | case2 text ih =>
    obtain ⟨⟨front, rest⟩, hfront, h⟩ := Option.map_eq_some_iff.mp h
    cases h
    have := ih hfront
    simp only [List.length_cons]
    omega
  | case3 rest =>
    cases h
    exact Nat.lt_succ_self _
  | case4 c text _ _ ih =>
    obtain ⟨⟨front, rest⟩, hfront, h⟩ := Option.map_eq_some_iff.mp h
    cases h
    exact Nat.lt_succ_of_lt (ih hfront)

theorem first_shorter {text behind : List Char} {t : WordToken} (h : first text = some (t, behind)) :
    behind.length < text.length := by
  cases text with
  | nil => cases h
  | cons c rest =>
    have hdrop (p : Char → Bool) : (rest.dropWhile p).length < (c :: rest).length :=
      Nat.lt_succ_of_le (List.dropWhile_sublist p).length_le
    simp only [first] at h
    split_ifs at h
    · cases h
      exact Nat.lt_succ_self _
    · obtain ⟨⟨name, rest'⟩, hname, h⟩ := Option.map_eq_some_iff.mp h
      cases h
      exact Nat.lt_succ_of_lt (quoted_shorter hname)
    · cases h
      exact hdrop _
    · cases h
      exact hdrop _
    · cases h
      exact Nat.lt_succ_self _

/-- The tokens of a text; blanks only keep them apart. -/
def read (text : List Char) : Option (List WordToken) :=
  match text with
  | [] => some []
  | c :: rest =>
    if c = ' ' then read rest
    else match _h : first (c :: rest) with
      | none => none
      | some (token, behind) => (read behind).map (token :: ·)
termination_by text.length
decreasing_by
  · exact Nat.lt_succ_self _
  · exact first_shorter ‹_›

theorem read_blank (rest : List Char) : read (' ' :: rest) = read rest := by
  rw [read, if_pos rfl]

theorem read_first {text behind : List Char} {t : WordToken} (h : first text = some (t, behind)) :
    read text = (read behind).map (t :: ·) := by
  cases text with
  | nil => cases h
  | cons c rest =>
    have hblank : c ≠ ' ' := by
      rintro rfl
      cases h
    rw [read, if_neg hblank]
    split
    · simp_all
    · simp_all

end WordToken

namespace Chunk

def token? : Chunk → Option WordToken
  | plain [' '] => none
  | plain s => some (.ofRun s)
  | quoted name => some (.quoted (String.ofList name))
  | mark => some .placeholder

theorem token?_plain {s : List Char} (h : s ≠ [' ']) : (plain s).token? = some (.ofRun s) := by
  unfold token?
  split <;> simp_all

/-- A gap, a word or an operator that a word stands for; names between quotes and placeholders as they are. -/
def isSpelled : Chunk → Bool
  | plain s => isGap (plain s) || isWord s ||
      (s.all Word.isSign && (Word.spellings.lookup (String.ofList s)).isSome)
  | _ => true

end Chunk

section Chunks

/-- A run of characters ends where a gap stands. -/
private theorem span_breaks {p : Char → Bool} {s rest : List Char} (hs : ∀ c ∈ s, p c = true)
    (hgaps : ∀ c ∈ Chunk.gaps, p c = false) (hrest : Breaks rest) :
    (s ++ rest).takeWhile p = s ∧ (s ++ rest).dropWhile p = rest := by
  have hstop : rest.takeWhile p = [] ∧ rest.dropWhile p = rest := by
    cases rest with
    | nil => exact ⟨rfl, rfl⟩
    | cons c rest => simp [hgaps c (hrest c rfl)]
  rw [List.takeWhile_append_of_pos hs, List.dropWhile_append_of_pos hs, hstop.1, hstop.2, List.append_nil]
  exact ⟨rfl, rfl⟩

private theorem isNameStart_of_wordStart {c : Char} (h : isWordStart c = true) : isNameStart c = true := by
  simp only [isWordStart, Text.isLetter, Bool.or_eq_true, Bool.and_eq_true] at h
  simp only [isNameStart, Bool.or_eq_true]
  rcases h with (halpha | hfar) | hscore
  · exact .inl (.inl halpha)
  · exact .inr hfar.1
  · exact .inl (.inr hscore)

private theorem isNameChar_of_wordChar {c : Char} (h : isWordChar c = true) : isNameChar c = true := by
  have hstart : isWordStart c = true → isNameStart c = true := isNameStart_of_wordStart
  simp only [isWordStart, Bool.or_eq_true] at hstart
  simp only [isWordChar, Bool.or_eq_true] at h
  simp only [isNameChar, Bool.or_eq_true]
  rcases h with ((hletter | hdigit) | hdollar) | hscore
  · exact .inl (.inl (hstart (.inl hletter)))
  · exact .inl (.inr hdigit)
  · exact .inr hdollar
  · exact .inl (.inl (hstart (.inr hscore)))

private theorem first_gap {c : Char} (hc : c ∈ Chunk.gaps) (hblank : c ≠ ' ') (rest : List Char) :
    WordToken.first (c :: rest) = some (.ofRun [c], rest) := by
  have hkind : ∀ c ∈ Chunk.gaps, c ≠ ' ' → c ≠ '?' ∧ c ≠ '"' ∧ isNameStart c = false ∧
      Word.isSign c = false ∧ "(),.[]".toList.contains c = true := forall_mem_of_all (by decide)
  obtain ⟨hmark, hquote, hname, hsign, hgap⟩ := hkind c hc hblank
  rw [WordToken.first, if_neg hmark, if_neg hquote, if_neg (by simp [hname]), if_neg (by simp [hsign]),
    if_pos hgap]

private theorem first_word {c : Char} {s rest : List Char} (hc : isWordStart c = true)
    (hs : s.all isWordChar = true) (hrest : Breaks rest) :
    WordToken.first (c :: s ++ rest) = some (.ofRun (c :: s), rest) := by
  have hstart := isNameStart_of_wordStart hc
  have hmark : c ≠ '?' := by
    rintro rfl
    exact absurd hstart (by decide)
  have hquote : c ≠ '"' := by
    rintro rfl
    exact absurd hstart (by decide)
  have hspan := span_breaks (fun d hd => isNameChar_of_wordChar (List.all_eq_true.mp hs d hd))
    (forall_mem_of_all (by decide)) hrest
  rw [List.cons_append, WordToken.first, if_neg hmark, if_neg hquote, if_pos hstart, hspan.1, hspan.2]

private theorem first_operator {c : Char} {s rest : List Char} (hs : (c :: s).all Word.isSign = true)
    (hspelled : (Word.spellings.lookup (String.ofList (c :: s))).isSome = true) (hrest : Breaks rest) :
    WordToken.first (c :: s ++ rest) = some (.ofRun (c :: s), rest) := by
  have hkind : ∀ c ∈ "=<>+-*/|".toList, c ≠ '?' ∧ c ≠ '"' ∧ isNameStart c = false :=
    forall_mem_of_all (by decide)
  obtain ⟨hc, hall⟩ := Bool.and_eq_true_iff.mp hs
  obtain ⟨hmark, hquote, hname⟩ := hkind c (by simpa [Word.isSign] using hc)
  have hspan := span_breaks (List.all_eq_true.mp hall) (forall_mem_of_all (by decide)) hrest
  rw [List.cons_append, WordToken.first, if_neg hmark, if_neg hquote, if_neg (by simp [hname]), if_pos hc,
    hspan.1, hspan.2, if_pos hspelled]

/-- A chunk with a token is read as it, if what follows keeps away from it. -/
private theorem first_chunk {c : Chunk} {t : WordToken} {rest : List Char} (hspelled : c.isSpelled = true)
    (ht : c.token? = some t) (hrest : c.isGap = true ∨ Breaks rest) :
    WordToken.first (c.text ++ rest) = some (t, rest) := by
  cases c with
  | mark =>
    cases ht
    rfl
  | quoted name =>
    cases ht
    have hhead : rest.head? ≠ some '"' := by
      intro h
      exact absurd (hrest.resolve_left nofun '"' h) (by decide)
    have hquoted := quoted_doubled name hhead
    have hname : ('"' : Char) ≠ '?' := by decide
    simp only [Chunk.text, quoteName, List.cons_append, List.append_assoc, List.nil_append, WordToken.first,
      if_neg hname, if_pos, hquoted, Option.map_some]
  | plain s =>
    by_cases hgap : (Chunk.plain s).isGap = true
    · obtain ⟨d, hd, hs⟩ := Chunk.gap_text hgap
      cases hs
      have hblank : d ≠ ' ' := by
        rintro rfl
        cases ht
      cases (Chunk.token?_plain (by simpa using hblank)).symm.trans ht
      exact first_gap hd hblank rest
    · have hbreaks := hrest.resolve_left hgap
      have hblank : s ≠ [' '] := by
        rintro rfl
        exact hgap rfl
      cases (Chunk.token?_plain hblank).symm.trans ht
      simp only [Chunk.isSpelled, hgap, Bool.false_or, Bool.or_eq_true, Bool.and_eq_true] at hspelled
      cases s with
      | nil => simp [Chunk.isWord, Word.spellings] at hspelled
      | cons d r =>
        rcases hspelled with hword | ⟨hsigns, hlookup⟩
        · obtain ⟨hd, hr⟩ := Bool.and_eq_true_iff.mp hword
          exact first_word hd hr hbreaks
        · exact first_operator hsigns hlookup hbreaks

/-- The text of chunks that are kept apart is read chunk by chunk. -/
theorem Tidy.read_eq {chunks : List Chunk} (h : Tidy chunks) (hspelled : ∀ c ∈ chunks, c.isSpelled = true) :
    WordToken.read (chunksText chunks) = some (chunks.filterMap Chunk.token?) := by
  induction chunks with
  | nil => simp [chunksText, WordToken.read]
  | cons c rest ih =>
    obtain ⟨hc, hchunks⟩ := List.forall_mem_cons.mp hspelled
    have hrest := ih h.tail hchunks
    rw [chunksText_cons, List.filterMap_cons]
    cases ht : c.token? with
    | none =>
      have hblank : c = .plain [' '] := by
        unfold Chunk.token? at ht
        split at ht <;> simp_all
      subst hblank
      exact (WordToken.read_blank _).trans hrest
    | some t => rw [WordToken.read_first (first_chunk hc ht h.breaks), hrest, Option.map_some]

end Chunks

end TypedSql.Sql

import TypedSql.Sql.Identifier

/-! Names are written so that the server reads them back: a bare name must not be a keyword of the
expressions around it, and a name between quotes is taken as it is. -/
namespace TypedSql.Sql

/-- The keywords that operators and markers in expressions are spelled with. -/
def expressionWords : List String :=
  ["and", "or", "not", "is", "null", "like", "ilike", "any", "cast", "as", "default", "true", "false"]

/-- A keyword in lower case, a name, or any other character. -/
inductive TextToken where
  | keyword (word : String)
  | name (name : String)
  | sign (c : Char)
  deriving DecidableEq, Repr

namespace TextToken

def isNameStart (c : Char) : Bool := c.isAlpha || c = '_' || 128 ≤ c.toNat
def isNameChar (c : Char) : Bool := isNameStart c || c.isDigit || c = '$'

/-- What a word without quotes stands for; it does not matter how its ASCII letters are cased. -/
def ofWord (word : List Char) : TextToken :=
  let folded := String.ofList (word.map Char.toLower)
  if folded ∈ expressionWords then .keyword folded else .name folded

/-- The name behind an opening quote, each doubled quote in it taken for one, and the text behind it. -/
def quoted : List Char → Option (List Char × List Char)
  | [] => none
  | '"' :: '"' :: text => (quoted text).map fun (front, rest) => ('"' :: front, rest)
  | '"' :: rest => some ([], rest)
  | c :: text => (quoted text).map fun (front, rest) => (c :: front, rest)

/-- The first token of a text and the text behind it. -/
def first : List Char → Option (TextToken × List Char)
  | [] => none
  | '"' :: text => (quoted text).map fun (front, rest) => (.name (String.ofList front), rest)
  | c :: text =>
    if isNameStart c then
      some (ofWord (c :: text.takeWhile isNameChar), text.dropWhile isNameChar)
    else some (.sign c, text)

end TextToken

open TextToken

/-- Nothing, or a text that does not go on with the name in front of it. -/
def EndsName (rest : List Char) : Prop := ∀ c ∈ rest.head?, isNameChar c = false ∧ c ≠ '"'

/-- Reading a name undoes the doubling of its quotes. -/
theorem quoted_doubled (name : List Char) {rest : List Char} (hrest : rest.head? ≠ some '"') :
    quoted (name.flatMap (fun c => if c = '"' then ['"', '"'] else [c]) ++ '"' :: rest) =
      some (name, rest) := by
  induction name with
  | nil =>
    rw [List.flatMap_nil, List.nil_append, quoted]
    rintro _ rfl
    exact hrest rfl
  | cons c name ih =>
    by_cases hc : c = '"'
    · simp [hc, quoted, ih]
    · rw [List.flatMap_cons, if_neg hc, List.append_assoc, List.singleton_append, quoted, ih]
      · rfl
      · exact fun _ h _ => hc h
      · exact hc

theorem first_quoteName (name : List Char) {rest : List Char} (hrest : rest.head? ≠ some '"') :
    first (quoteName name ++ rest) = some (.name (String.ofList name), rest) := by
  have hread := quoted_doubled name hrest
  simp only [quoteName, List.cons_append, List.append_assoc, List.nil_append, first, hread, Option.map_some]

private theorem isAlpha_of_isLower {c : Char} (h : c.isLower = true) : c.isAlpha = true :=
  Bool.or_eq_true_iff.mpr (.inr h)

theorem isNameStart_of_plain {c : Char} (h : isPlainStart c = true) : isNameStart c = true := by
  rcases Bool.or_eq_true_iff.mp h with hlower | hscore
  · simp [isNameStart, isAlpha_of_isLower hlower]
  · simp [isNameStart, hscore]

theorem isPlainChar_of_start {c : Char} (h : isPlainStart c = true) : isPlainChar c = true := by
  rcases Bool.or_eq_true_iff.mp h with hlower | hscore
  · simp [isPlainChar, hlower]
  · simp [isPlainChar, hscore]

theorem isNameChar_of_plain {c : Char} (h : isPlainChar c = true) : isNameChar c = true := by
  simp only [isPlainChar, Bool.or_eq_true] at h
  rcases h with (hlower | hdigit) | hscore
  · simp [isNameChar, isNameStart, isAlpha_of_isLower hlower]
  · simp [isNameChar, hdigit]
  · simp [isNameChar, isNameStart, hscore]

/-- A bare name has no capital letters to fold. -/
theorem toLower_of_plain {c : Char} (h : isPlainChar c = true) : c.toLower = c := by
  apply dif_neg
  simp only [isPlainChar] at h
  delta Char.isLower Char.isDigit at h
  simp only [Bool.or_eq_true, Bool.and_eq_true, decide_eq_true_eq, UInt32.le_iff_toNat_le, ge_iff_le] at h ⊢
  rcases h with (hlower | hdigit) | rfl
  · simp at hlower ⊢
    omega
  · simp at hdigit ⊢
    omega
  · decide

/-- A bare word reaches as far as its characters do and is read as it is written. -/
theorem first_plain {word rest : List Char} (hword : isPlain word = true) (hrest : EndsName rest) :
    first (word ++ rest) =
      some (if String.ofList word ∈ expressionWords then .keyword (String.ofList word)
        else .name (String.ofList word), rest) := by
  cases word with
  | nil => cases hword
  | cons c word =>
    obtain ⟨hc, hplain⟩ := Bool.and_eq_true_iff.mp hword
    have hall : ∀ d ∈ c :: word, isPlainChar d = true :=
      List.forall_mem_cons.mpr ⟨isPlainChar_of_start hc, List.all_eq_true.mp hplain⟩
    have hname : ∀ d ∈ word, isNameChar d = true :=
      fun d hd => isNameChar_of_plain (hall d (List.mem_cons_of_mem c hd))
    have hstop : rest.takeWhile isNameChar = [] ∧ rest.dropWhile isNameChar = rest := by
      cases rest with
      | nil => exact ⟨rfl, rfl⟩
      | cons d rest => simp [(hrest d rfl).1]
    have hfold : (c :: word).map Char.toLower = c :: word :=
      (List.map_congr_left fun d hd => toLower_of_plain (hall d hd)).trans (List.map_id _)
    have hquote : c ≠ '"' := by
      rintro rfl
      exact absurd hc (by decide)
    rw [List.cons_append, first, if_pos (isNameStart_of_plain hc), List.takeWhile_append_of_pos hname,
      List.dropWhile_append_of_pos hname, hstop.1, hstop.2, List.append_nil, ofWord, hfold]
    exact hquote

/-- The keywords of expressions that are not on the list of reserved words. -/
def unguardedWords : List String := ["is", "like", "ilike"]

theorem mem_unguardedWords {name : String} :
    name ∈ unguardedWords ↔ name ∈ expressionWords ∧ name ∉ reservedWords := by
  have hwords : unguardedWords = expressionWords.filter (· ∉ reservedWords) := by decide
  simp [hwords]

private theorem first_identifier (name : String) {rest : List Char} (hrest : EndsName rest) :
    first ((identifier name).toList ++ rest) =
      some (if name ∈ unguardedWords then .keyword name else .name name, rest) := by
  have hplain : ∀ word ∈ expressionWords, isPlain word.toList = true := by decide
  unfold identifier
  split
  case isTrue hbare =>
    obtain ⟨hname, hfree⟩ : isPlain name.toList = true ∧ name ∉ reservedWords := by simpa using hbare
    rw [first_plain hname hrest, String.ofList_toList]
    simp only [mem_unguardedWords, hfree, not_false_eq_true, and_true]
  case isFalse hbare =>
    have hguarded : name ∉ unguardedWords := by
      intro hmem
      obtain ⟨hword, hfree⟩ := mem_unguardedWords.mp hmem
      exact hbare (by simp [hplain name hword, hfree])
    rw [String.toList_ofList, first_quoteName _ fun h => (hrest '"' h).2 rfl, String.ofList_toList,
      if_neg hguarded]

/-- A name is read back as itself wherever it stands, except `is`, `like` and `ilike`, which are written bare
and read as keywords. No two names are written the same. -/
theorem identifier_read (name : String) {rest : List Char} (hrest : EndsName rest) :
    first ((identifier name).toList ++ rest) =
        some (if name ∈ unguardedWords then .keyword name else .name name, rest) ∧
      ∀ other, identifier other = identifier name → other = name := by
  refine ⟨first_identifier name hrest, fun other hsame => ?_⟩
  have hends : EndsName [] := nofun
  have hother := first_identifier other hends
  rw [hsame, first_identifier name hends] at hother
  split at hother <;> split at hother <;> cases hother <;> rfl

/-- An empty name, and a keyword with a quote and a capital in it. -/
theorem identifier_read_quoted :
    first ((identifier "").toList ++ " AS".toList) = some (.name "", " AS".toList) ∧
      first ((identifier "Like\"").toList ++ ".id".toList) = some (.name "Like\"", ".id".toList) := by
  have hlabel : EndsName " AS".toList := by
    rintro c ⟨⟩
    decide
  have hcolumn : EndsName ".id".toList := by
    rintro c ⟨⟩
    decide
  exact ⟨(identifier_read "" hlabel).1, (identifier_read "Like\"" hcolumn).1⟩

/-- A column named like an operator is read as the operator. -/
theorem identifier_read_operator :
    first (identifier "like").toList = some (.keyword "like", []) ∧
      first (identifier "like").toList ≠ some (.name "like", []) := by
  decide

end TypedSql.Sql

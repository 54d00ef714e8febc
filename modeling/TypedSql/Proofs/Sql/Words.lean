import TypedSql.Proofs.Sql.Pieces
import Mathlib.Data.List.SplitBy

/-! The words of a text: names, placeholders, operators, keywords and punctuation. -/
namespace TypedSql.Sql

/-- Keywords are named for what they bring; each is spelled as in `Word.spellings`. -/
inductive Word where
  | name (s : String)
  | function (s : String)
  /-- A placeholder with the parameter bound to it. -/
  | mark (p : Parameter)
  | type (s : String)
  | operator (op : Operator)
  | opening
  | closing
  | comma
  | dot
  | negation
  | is
  | null
  | any
  | default
  | bool (b : Bool)
  | existence
  | selection
  | source
  | condition
  | sorting
  | key
  | descending
  | bound
  | lock
  | update
  | skip
  | locked
  | cast
  | label

namespace Word

/-- How operators, keywords and punctuation are spelled. -/
def spellings : List (String × Word) :=
  [("=", operator .eq), ("<>", operator .ne), ("<", operator .lt), ("<=", operator .le),
    (">", operator .gt), (">=", operator .ge), ("AND", operator .and), ("OR", operator .or),
    ("+", operator .plus), ("-", operator .minus), ("*", operator .times), ("/", operator .divide),
    ("LIKE", operator .like), ("ILIKE", operator .ilike), ("||", operator .concat),
    ("(", opening), (")", closing), (",", comma), (".", dot), ("NOT", negation), ("IS", is),
    ("NULL", null), ("ANY", any), ("DEFAULT", default), ("TRUE", bool true), ("FALSE", bool false),
    ("EXISTS", existence), ("SELECT", selection), ("FROM", source), ("WHERE", condition),
    ("ORDER", sorting), ("BY", key), ("DESC", descending), ("LIMIT", bound), ("FOR", lock),
    ("UPDATE", update), ("SKIP", skip), ("LOCKED", locked), ("CAST", cast), ("AS", label)]

def isWordChar (c : Char) : Bool := c.isAlphanum || c = '_'
def isSign (c : Char) : Bool := "=<>+-*/|".toList.contains c

/-- Letters stick together, and so do the signs of an operator. -/
def stick (c d : Char) : Bool := (isWordChar c && isWordChar d) || (isSign c && isSign d)

/-- A run of characters that stick together is a keyword, an operator or else a name. -/
def ofRun (run : List Char) : Word :=
  (spellings.lookup (String.ofList run)).getD (name (String.ofList run))

/-- The text cut where neighbours do not stick together. -/
def runs (s : String) : List (List Char) := s.toList.splitBy stick

/-- The words of a text the writer spells itself; blanks only keep them apart. -/
def ofText (s : String) : List Word := ((runs s).filter (· ≠ [' '])).map ofRun

theorem ofText_operator (op : Operator) : ofText op.text = [operator op] := by
  cases op <;> rfl

private theorem spellings_plain : ∀ w ∈ spellings, w.1.toList.head? ≠ some '_' := by
  decide

theorem outputName_toList (index : Nat) :
    (Scope.outputName index).toList = '_' :: Nat.toDigits 10 index := by
  simp [Scope.outputName]

theorem outputName_injective {i j : Nat} (h : Scope.outputName i = Scope.outputName j) : i = j := by
  have hdigits : Nat.toDigits 10 i = Nat.toDigits 10 j := by
    have hlist := congrArg String.toList h
    rw [outputName_toList, outputName_toList] at hlist
    exact (List.cons.inj hlist).2
  calc
    i = Nat.ofDigitChars 10 (Nat.toDigits 10 i) 0 := Nat.ofDigitChars_ten_toDigits.symm
    _ = Nat.ofDigitChars 10 (Nat.toDigits 10 j) 0 := by rw [hdigits]
    _ = j := Nat.ofDigitChars_ten_toDigits

theorem outputName_digits {index : Nat} {c : Char} (hc : c ∈ Nat.toDigits 10 index) : c.isDigit = true :=
  Nat.isDigit_of_mem_toDigits (by decide) (by decide) hc

theorem runs_outputName (index : Nat) :
    runs (Scope.outputName index) = [(Scope.outputName index).toList] := by
  have hword : ∀ c ∈ (Scope.outputName index).toList, isWordChar c = true := by
    intro c hc
    rw [outputName_toList] at hc
    rcases List.mem_cons.mp hc with rfl | hc
    · decide
    · simp [isWordChar, Char.isAlphanum, outputName_digits hc]
  apply List.splitBy_of_isChain
  · simp [outputName_toList]
  · apply List.Pairwise.isChain
    refine List.pairwise_of_forall_mem_list fun c hc d hd => ?_
    simp [stick, hword c hc, hword d hd]

/-- The names of outputs are no keywords. -/
theorem ofText_outputName (index : Nat) :
    ofText (Scope.outputName index) = [name (Scope.outputName index)] := by
  have hlookup : spellings.lookup (Scope.outputName index) = none := by
    refine List.lookup_eq_none_iff.mpr fun v hv => bne_iff_ne.mpr fun he => ?_
    exact spellings_plain v hv (by rw [← he, outputName_toList]; rfl)
  have hblank : (Scope.outputName index).toList ≠ [' '] := by simp [outputName_toList]
  rw [ofText, runs_outputName, List.filter_cons_of_pos (by simpa using hblank)]
  simp only [List.filter_nil, List.map_cons, List.map_nil, ofRun, String.ofList_toList, hlookup]
  rfl

end Word

/-- The words of a piece. Names, functions and types stand as they are, so that no name is ever taken
for a keyword. -/
def Piece.words : Piece → List Word
  | .text s => Word.ofText s
  | .name n => [.name n]
  | .function f => [.function f]
  | .parameter p =>
    if p.type.needsCast then
      [.cast, .opening, .mark p, .label, .type (castType p.type.descriptor), .closing]
    else [.mark p]

def Fragment.words (f : Fragment) : List Word := f.flatMap Piece.words

namespace Fragment

@[simp] theorem words_nil : Fragment.words [] = [] := rfl

@[simp] theorem words_cons (p : Piece) (f : Fragment) :
    Fragment.words (p :: f) = p.words ++ Fragment.words f := rfl

@[simp] theorem words_append (f g : Fragment) :
    Fragment.words (f ++ g) = Fragment.words f ++ Fragment.words g := by
  simp [words]

end Fragment
end TypedSql.Sql

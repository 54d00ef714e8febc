/-! Places in a text: lines and columns in characters, offsets in bytes, and the ways between them. -/
namespace TypedSql.Text

/-- A line and a column, both counted from one; columns count characters. -/
structure Location where
  line : Nat
  column : Nat
  deriving DecidableEq, Repr

namespace Location

def start : Location := ⟨1, 1⟩

/-- The place behind a character. -/
def advance (l : Location) (c : Char) : Location :=
  if c = '\n' then ⟨l.line + 1, 1⟩ else ⟨l.line, l.column + 1⟩

/-- The place behind a text that starts here. -/
def advanceAll (l : Location) (text : List Char) : Location := text.foldl advance l

/-- The place of the character at a position counted from one; zero counts as one. -/
def ofPosition (text : List Char) (position : Nat) : Location :=
  start.advanceAll (text.take (position - 1))

end Location

/-- Bytes of the text in UTF-8. -/
def byteLength : List Char → Nat
  | [] => 0
  | c :: rest => c.utf8Size + byteLength rest

/-- The text split at a byte offset, unless it falls inside a character or behind the end. -/
def splitAtByte : List Char → Nat → Option (List Char × List Char)
  | text, 0 => some ([], text)
  | [], _ + 1 => none
  | c :: rest, offset@(_ + 1) =>
    if c.utf8Size ≤ offset then
      (splitAtByte rest (offset - c.utf8Size)).map fun (front, back) => (c :: front, back)
    else none

/-- Byte offsets of the characters behind line breaks, counted from `offset`. -/
def breaksFrom (offset : Nat) : List Char → List Nat
  | [] => []
  | c :: rest =>
    let next := offset + c.utf8Size
    if c = '\n' then next :: breaksFrom next rest else breaksFrom next rest

/-- The byte offset at which each line starts. -/
def lineStarts (text : List Char) : List Nat := 0 :: breaksFrom 0 text

/-- The byte offset of the character at a location; `none` where no character stands. -/
def byteOffset (text : List Char) (starts : List Nat) (l : Location) : Option Nat :=
  match l.line, l.column with
  | line + 1, column + 1 => do
    let start ← starts[line]?
    let (_, rest) ← splitAtByte text start
    if column < rest.length then some (start + byteLength (rest.take column)) else none
  | _, _ => none

end TypedSql.Text

import TypedSql.Value.Basic

/-! The text form of protocol values, as the server's input functions read it. -/
namespace TypedSql

/-- Spelled-out words for what has no digits, else the shortest digits. -/
def Floating.Double.literal (x : Floating.Double) : String :=
  match x.magnitude with
  | .nan => "NaN"
  | .infinite => if x.isNegative then "-Infinity" else "Infinity"
  | .finite _ _ => x.plain

/-- The text form of a leaf. Single precision is written with the digits of its double. -/
def Scalar.literal : Scalar → String
  | .bool b => if b then "t" else "f"
  | .float32 x => x.toDouble.literal
  | .float64 x => x.literal
  | .bytes b => "\\x" ++ Text.hex b
  | .timestampTz t => t.offsetText
  | s => s.display

namespace Literal

/-- Quotes and backslashes behind a backslash. -/
def escape (c : Char) : List Char := if c = '"' || c = '\\' then ['\\', c] else [c]

/-- A text between double quotes. -/
def quote (text : List Char) : List Char := '"' :: text.flatMap escape ++ ['"']

/-- Parts with commas between them. -/
def commas : List (List Char) → List Char
  | [] => []
  | [part] => part
  | part :: rest => part ++ ',' :: commas rest

end Literal

namespace Wire
open Literal

mutual

/-- The text form, null being empty. Only arrays within arrays stand without quotes. -/
def literalChars : Wire → List Char
  | null => []
  | scalar s => s.literal.toList
  | array _ items => '\x7b' :: commas (itemChars items) ++ ['\x7d']
  | record fields => '(' :: commas (fieldChars fields) ++ [')']
  | range .empty => "empty".toList
  | range (.between lower upper) => lowerChars lower ++ ',' :: upperChars upper

def itemChars : List Wire → List (List Char)
  | [] => []
  | null :: rest => "NULL".toList :: itemChars rest
  | array e items :: rest => (array e items).literalChars :: itemChars rest
  | w :: rest => quote w.literalChars :: itemChars rest

def fieldChars : List Wire → List (List Char)
  | [] => []
  | null :: rest => [] :: fieldChars rest
  | w :: rest => quote w.literalChars :: fieldChars rest

def lowerChars : Bound Wire → List Char
  | .inclusive w => '[' :: quote w.literalChars
  | .exclusive w => '(' :: quote w.literalChars
  | .unbounded => ['(']

def upperChars : Bound Wire → List Char
  | .inclusive w => quote w.literalChars ++ [']']
  | .exclusive w => quote w.literalChars ++ [')']
  | .unbounded => [')']

end

/-- The text form of a value that is not null. -/
def literal? (w : Wire) : Option String :=
  if w.isNull then none else some (String.ofList w.literalChars)

end Wire
end TypedSql

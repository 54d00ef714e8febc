import TypedSql.Json.Basic
import TypedSql.Floating.Text
import TypedSql.Text.Hex

/-! Compact document text: no blanks, fields in the order of their keys. -/
namespace TypedSql

def JsonNumber.text : JsonNumber → String
  | .integer n => toString n
  | .decimal x => x.documentText

namespace Json

/-- A character inside a string; only quotes, backslashes and controls are escaped. -/
def escape (c : Char) : List Char :=
  match c with
  | '"' => ['\\', '"']
  | '\\' => ['\\', '\\']
  | '\n' => ['\\', 'n']
  | '\r' => ['\\', 'r']
  | '\t' => ['\\', 't']
  | '\x08' => ['\\', 'b']
  | '\x0c' => ['\\', 'f']
  | c => if c.toNat < 32 then '\\' :: 'u' :: (Text.padded 16 4 c.toNat).toList else [c]

def stringText (s : String) : String :=
  String.ofList ('"' :: s.toList.flatMap escape ++ ['"'])

mutual

def text : Json → String
  | .null => "null"
  | .bool b => if b then "true" else "false"
  | .number n => n.text
  | .string s => stringText s
  | .array items => "[" ++ ",".intercalate (texts items) ++ "]"
  | .object fields => "\x7b" ++ ",".intercalate (fieldTexts fields) ++ "\x7d"

def texts : List Json → List String
  | [] => []
  | x :: rest => x.text :: texts rest

def fieldTexts : List (String × Json) → List String
  | [] => []
  | (k, x) :: rest => (stringText k ++ ":" ++ x.text) :: fieldTexts rest

end
end Json
end TypedSql

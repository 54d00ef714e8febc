/-! What keeps bytes from being a document, and where it shows. -/
namespace TypedSql.Json

/-- Why bytes are no document. -/
inductive Problem where
  | openList
  | openObject
  | openString
  | missingValue
  | notAValue
  | brokenWord
  | missingColon
  | listSeparator
  | objectSeparator
  | trailingComma
  | trailingText
  | unquotedKey
  | badNumber
  | numberRange
  | badEscape
  | control
  | unpairedEscape
  | loneSurrogate
  | badEncoding
  | tooDeep
  deriving DecidableEq, Repr

def Problem.message : Problem → String
  | openList => "EOF while parsing a list"
  | openObject => "EOF while parsing an object"
  | openString => "EOF while parsing a string"
  | missingValue => "EOF while parsing a value"
  | notAValue => "expected value"
  | brokenWord => "expected ident"
  | missingColon => "expected `:`"
  | listSeparator => "expected `,` or `]`"
  | objectSeparator => "expected `,` or `\x7d`"
  | trailingComma => "trailing comma"
  | trailingText => "trailing characters"
  | unquotedKey => "key must be a string"
  | badNumber => "invalid number"
  | numberRange => "number out of range"
  | badEscape => "invalid escape"
  | control => "control character (\\u0000-\\u001F) found while parsing a string"
  | unpairedEscape => "unexpected end of hex escape"
  | loneSurrogate => "lone leading surrogate in hex escape"
  | badEncoding => "invalid unicode code point"
  | tooDeep => "recursion limit exceeded"

/-- Where reading stops: a problem, and how many bytes were not looked at. -/
structure Stop where
  problem : Problem
  unseen : Nat
  deriving DecidableEq, Repr

namespace Stop

/-- Stops behind what was read. -/
def behind (problem : Problem) (rest : List UInt8) : Stop := ⟨problem, rest.length⟩

/-- Stops on the next byte. -/
def on (problem : Problem) (rest : List UInt8) : Stop := ⟨problem, rest.length - 1⟩

end Stop

/-- A problem with the line and the byte column up to which the text was seen. -/
structure Fault where
  problem : Problem
  line : Nat
  column : Nat
  deriving DecidableEq, Repr

namespace Fault

def message (f : Fault) : String := f.problem.message ++ s!" at line {f.line} column {f.column}"

/-- The line, counted from one, and the count of bytes in it, behind some bytes. -/
def placeBehind (bytes : List UInt8) : Nat × Nat :=
  bytes.foldl (fun (line, column) (b : UInt8) => if b = 10 then (line + 1, 0) else (line, column + 1)) (1, 0)

/-- The fault that a stop in a text stands for. -/
def ofStop (text : List UInt8) (stop : Stop) : Fault :=
  let (line, column) := placeBehind (text.take (text.length - stop.unseen))
  ⟨stop.problem, line, column⟩

end Fault
end TypedSql.Json

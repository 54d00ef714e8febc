import TypedSql.Text.Position
import TypedSql.Text.Hex

/-! The pieces of a query text, and what can be wrong with one. -/
namespace TypedSql.Sql
open Text

/-- What a piece of a query text is. -/
inductive Token where
  | blank
  | comment
  | word
  | number
  /-- A literal of any spelling, between quotes or dollar signs. -/
  | literal
  | quotedName
  | symbol
  /-- A question mark that stands for a parameter. -/
  | placeholder
  /-- A dollar sign and a name or number that stand for a parameter. -/
  | parameter (tag : String)
  deriving DecidableEq, Repr

/-- A token and the place where it starts. -/
structure Lexeme where
  token : Token
  start : Location
  deriving DecidableEq, Repr

/-- What keeps a text from falling into tokens. -/
inductive TokenProblem where
  | openString
  | openEscapedString
  | openUnicodeString
  | openQuotedName
  | openComment
  | openDollarString
  | openTaggedString
  | missingHexDigit
  | badHexDigit (c : Char)
  | badCodePoint (n : Nat)
  deriving DecidableEq, Repr

def TokenProblem.message : TokenProblem → String
  | openString => "Unterminated string literal"
  | openEscapedString => "Unterminated encoded string literal"
  | openUnicodeString => "Unterminated unicode encoded string literal"
  | openQuotedName => "Expected close delimiter '\"' before EOF."
  | openComment => "Unexpected EOF while in a multi-line comment"
  | openDollarString => "Unterminated dollar-quoted string"
  | openTaggedString => "Unterminated dollar-quoted, expected $"
  | missingHexDigit => "Unexpected EOF while parsing hex digit in escaped unicode string."
  | badHexDigit c => s!"Invalid hex digit in escaped unicode string: {c}"
  | badCodePoint n => "Invalid unicode character: " ++ padded 16 1 n

/-- A problem and the place where it shows. -/
structure TokenFault where
  problem : TokenProblem
  location : Location
  deriving DecidableEq, Repr

def TokenFault.message (f : TokenFault) : String :=
  f.problem.message ++ s!" at Line: {f.location.line}, Column: {f.location.column}"

end TypedSql.Sql

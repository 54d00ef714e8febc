import TypedSql.Sql.Token.Scan
import TypedSql.Error

/-! Placeholders numbered in the order of the text: each free question mark becomes `$1`, `$2`, ... -/
namespace TypedSql.Sql
open Text

/-- A parameter tag of decimal digits. -/
def isNumbered (tag : String) : Bool := !tag.isEmpty && tag.toList.all Char.isDigit

def numberText (k : Nat) : List Char := '$' :: Nat.toDigits 10 k

/-- Copies `rest`, which starts `cursor` bytes into the text, with the placeholders among the tokens
replaced by numbers above `count`. -/
def numberFrom (text : List Char) (starts : List Nat) (cursor count : Nat) (rest : List Char) :
    List Lexeme → Except QueryProblem (List Char)
  | [] => .ok rest
  | ⟨.parameter tag, _⟩ :: tokens =>
    if isNumbered tag then .error (.numbered tag)
    else numberFrom text starts cursor count rest tokens
  | ⟨.placeholder, start⟩ :: tokens =>
    let located := do
      let offset ← byteOffset text starts start
      let (before, after) ← splitAtByte rest (offset - cursor)
      match after with
      | '?' :: after => if cursor ≤ offset then some (offset, before, after) else none
      | _ => none
    match located with
    | none => .error (.unlocated start)
    | some (offset, before, after) =>
      (before ++ numberText (count + 1) ++ ·) <$>
        numberFrom text starts (offset + 1) (count + 1) after tokens
  | _ :: tokens => numberFrom text starts cursor count rest tokens

/-- The text with its placeholders numbered, the tokens given. -/
def numberLexemes (text : List Char) (tokens : List Lexeme) : Except QueryProblem (List Char) :=
  numberFrom text (lineStarts text) 0 0 text tokens

/-- The text with its placeholders numbered. A text that already has numbered parameters is refused. -/
def numberPlaceholders (sql : String) : Except Error String :=
  match lexemes sql.toList with
  | .error fault => .error (.query (.malformed fault))
  | .ok tokens =>
    match numberLexemes sql.toList tokens with
    | .error problem => .error (.query problem)
    | .ok text => .ok (String.ofList text)

end TypedSql.Sql

import TypedSql.Text.Hidden

/-! Text between double quotes with escapes, as messages show names and labels. -/
namespace TypedSql.Text.Quoted

/-- A character as it stands between the quotes; hidden ones appear as their code point. -/
def escape (c : Char) : List Char :=
  match c with
  | '\x00' => ['\\', '0']
  | '\t' => ['\\', 't']
  | '\n' => ['\\', 'n']
  | '\r' => ['\\', 'r']
  | '"' => ['\\', '"']
  | '\\' => ['\\', '\\']
  | c =>
    if isHidden c then ['\\', 'u', '\x7b'] ++ Nat.toDigits 16 c.toNat ++ ['\x7d']
    else [c]

end Quoted

/-- The text in quotes, with escapes where a reader could be misled. -/
def quoted (s : String) : String :=
  String.ofList ('"' :: s.toList.flatMap Quoted.escape ++ ['"'])

end TypedSql.Text

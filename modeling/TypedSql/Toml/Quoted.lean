import TypedSql.Text.Hex

/-! Strings as configuration text writes them: the first of four plain styles that can hold them, else
with escapes. -/
namespace TypedSql.Toml

/-- The longest run of a character. -/
private def longestRun (x : Char) (text : List Char) : Nat :=
  (text.foldl (fun (longest, current) c =>
    let current := if c = x then current + 1 else 0
    (max longest current, current)) (0, 0)).1

/-- Whether a character is a control character that every plain style must escape. -/
private def isControl (c : Char) : Bool :=
  (c.toNat < 32 && c ≠ '\t' && c ≠ '\n') || c.toNat = 127

/-- A character in double quotes; a quote is escaped only past the second in a row of a string of
several lines. -/
private def escapeAll (severalLines : Bool) : Nat → List Char → List Char
  | _, [] => []
  | run, c :: rest =>
    let code (e : Char) := '\\' :: e :: escapeAll severalLines 0 rest
    if c = '"' then
      if severalLines && run < 2 then c :: escapeAll severalLines (run + 1) rest else code '"'
    else if c = '\\' then code '\\'
    else if c = '\x08' then code 'b'
    else if c = '\t' then code 't'
    else if c = '\n' && !severalLines then code 'n'
    else if c = '\x0c' then code 'f'
    else if c = '\r' then code 'r'
    else if isControl c then
      "\\u".toList ++ ((Text.padded 16 4 c.toNat).map Char.toUpper).toList ++ escapeAll severalLines 0 rest
    else c :: escapeAll severalLines 0 rest

/-- The text of a string. -/
def quoted (s : String) : String :=
  let text := s.toList
  let controlled := text.any isControl
  let slashed := text.contains '\\'
  let broken := text.contains '\n'
  let doubles := longestRun '"' text
  let singles := longestRun '\'' text
  let opening := if broken then "\n" else ""
  let lines := "\"\"\"" ++ opening ++ String.ofList (escapeAll true 0 text) ++ "\"\"\""
  let line := "\"" ++ String.ofList (escapeAll false 0 text) ++ "\""
  if !controlled && !slashed && doubles = 0 && !broken then line
  else if !controlled && singles = 0 && !broken then "'" ++ s ++ "'"
  else if !controlled && !slashed && doubles ≤ 2 then lines
  else if !controlled && singles ≤ 2 then "'''" ++ opening ++ s ++ "'''"
  else if broken then lines
  else line

end TypedSql.Toml

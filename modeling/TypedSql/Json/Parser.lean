import TypedSql.Json.Number
import TypedSql.Text.Utf8

/-! Documents read from the bytes of their text: strict syntax, strings in UTF-8 without lone
surrogates, at most 127 levels. -/
namespace TypedSql.Json
open Text Mark

/-- The code unit that four hexadecimal digits give. -/
def codeUnit (a b c d : UInt8) : Option Nat := do
  return (((← hexValue a) * 16 + (← hexValue b)) * 16 + (← hexValue c)) * 16 + (← hexValue d)

/-- The character of a simple escape. -/
def simpleEscape (b : UInt8) : Option Char :=
  match Char.ofUInt8 b with
  | '"' => some '"'
  | '\\' => some '\\'
  | '/' => some '/'
  | 'b' => some '\x08'
  | 'f' => some '\x0c'
  | 'n' => some '\n'
  | 'r' => some '\r'
  | 't' => some '\t'
  | _ => none

/-- Where a code unit that is not there stops the reading: at the end, or four bytes on. -/
def stopInUnit (text : List UInt8) : Stop :=
  if text.length < 4 then .behind .openString [] else .behind .badEscape (text.drop 4)

/-- Where a first half of a pair stops the reading if no second escape follows. -/
def stopInPair : List UInt8 → Stop
  | [] | [Mark.backslash] => .behind .openString []
  | Mark.backslash :: Mark.smallU :: rest => stopInUnit rest
  | Mark.backslash :: rest | rest => .on .unpairedEscape rest

/-- The bytes up to the closing quote, escapes replaced by the bytes they stand for, and what follows
the quote. -/
def readQuoted : List UInt8 → Except Stop (List UInt8 × List UInt8)
  | [] => .error (.behind .openString [])
  | Mark.quote :: rest => .ok ([], rest)
  | Mark.backslash :: Mark.smallU :: a :: b :: c :: d :: rest =>
    match codeUnit a b c d with
    | none => .error (.behind .badEscape rest)
    | some high =>
      if 0xd800 ≤ high && high < 0xdc00 then
        match rest with
        | Mark.backslash :: Mark.smallU :: e :: f :: g :: h :: rest =>
          match codeUnit e f g h with
          | none => .error (.behind .badEscape rest)
          | some low =>
            if 0xdc00 ≤ low && low < 0xe000 then do
              let char := Char.ofNat (0x10000 + (high - 0xd800) * 0x400 + (low - 0xdc00))
              let (bytes, rest) ← readQuoted rest
              return (String.utf8EncodeChar char ++ bytes, rest)
            else .error (.behind .loneSurrogate rest)
        | rest => .error (stopInPair rest)
      else if 0xdc00 ≤ high && high < 0xe000 then .error (.behind .loneSurrogate rest)
      else do
        let (bytes, rest) ← readQuoted rest
        return (String.utf8EncodeChar (Char.ofNat high) ++ bytes, rest)
  | Mark.backslash :: Mark.smallU :: rest => .error (stopInUnit rest)
  | Mark.backslash :: b :: rest =>
    match simpleEscape b with
    | some char => do
      let (bytes, rest) ← readQuoted rest
      return (String.utf8EncodeChar char ++ bytes, rest)
    | none => .error (.behind .badEscape rest)
  | [Mark.backslash] => .error (.behind .openString [])
  | b :: rest =>
    if b < 0x20 then .error (.behind .control rest)
    else do
      let (bytes, rest) ← readQuoted rest
      return (b :: bytes, rest)

/-- The text up to the closing quote, and what follows it. Malformed bytes stop the reading at the
quote, less as many bytes as the text has from the first of them on. -/
def readString (text : List UInt8) : Except Stop (String × List UInt8) := do
  let (bytes, rest) ← readQuoted text
  match Utf8.decode bytes with
  | .ok s => return (s, rest)
  | .error fault => throw ⟨.badEncoding, rest.length + (bytes.length - fault.index)⟩

/-- What follows the given characters. -/
def readWord : List Char → List UInt8 → Except Stop (List UInt8)
  | [], text => .ok text
  | _ :: _, [] => .error (.behind .missingValue [])
  | c :: expected, b :: rest =>
    if Char.ofUInt8 b = c then readWord expected rest else .error (.behind .brokenWord rest)

/-- What follows a comma, blanks aside, where another item must follow. -/
def afterComma (close : UInt8) (text : List UInt8) : Except Stop (List UInt8) :=
  match skipBlanks text with
  | [] => .error (.behind .missingValue [])
  | b :: rest => if b = close then .error (.behind .trailingComma rest) else .ok (b :: rest)

/-- How deep arrays and objects may nest. -/
def maxDepth : Nat := 127

mutual

/-- Reads the value a text starts with. Every call uses up a unit of fuel, at most two for each
byte. -/
def readValue : Nat → Nat → List UInt8 → Except Stop (Json × List UInt8)
  | 0, _, text => .error (.behind .tooDeep text)
  | fuel + 1, depth, text =>
    match skipBlanks text with
    | [] => .error (.behind .missingValue [])
    | b :: rest =>
      match Char.ofUInt8 b with
      | 'n' => (readWord ['u', 'l', 'l'] rest).map (Json.null, ·)
      | 't' => (readWord ['r', 'u', 'e'] rest).map (Json.bool true, ·)
      | 'f' => (readWord ['a', 'l', 's', 'e'] rest).map (Json.bool false, ·)
      | '"' => (readString rest).map fun (s, rest) => (.string s, rest)
      | '[' =>
        match depth, skipBlanks rest with
        | 0, _ => .error (.behind .tooDeep rest)
        | _ + 1, [] => .error (.behind .openList [])
        | _ + 1, Mark.closeBracket :: rest => .ok (.array [], rest)
        | depth + 1, rest => (readItems fuel depth rest).map fun (items, rest) => (.array items, rest)
      | '\x7b' =>
        match depth, skipBlanks rest with
        | 0, _ => .error (.behind .tooDeep rest)
        | _ + 1, [] => .error (.behind .openObject [])
        | _ + 1, Mark.closeBrace :: rest => .ok (.object [], rest)
        | depth + 1, rest =>
          (readFields fuel depth rest).map fun (fields, rest) => (ofFields fields, rest)
      | '-' => (JsonNumber.read true rest).map fun (n, rest) => (.number n, rest)
      | c =>
        if c.isDigit then (JsonNumber.read false (b :: rest)).map fun (n, rest) => (.number n, rest)
        else .error (.behind .notAValue rest)

/-- Reads items up to the closing bracket; at least one. -/
def readItems : Nat → Nat → List UInt8 → Except Stop (List Json × List UInt8)
  | 0, _, text => .error (.behind .tooDeep text)
  | fuel + 1, depth, text => do
    let (item, rest) ← readValue fuel depth text
    match skipBlanks rest with
    | [] => throw (.behind .openList [])
    | Mark.closeBracket :: rest => return ([item], rest)
    | Mark.comma :: rest =>
      let (items, rest) ← readItems fuel depth (← afterComma Mark.closeBracket rest)
      return (item :: items, rest)
    | rest => throw (.on .listSeparator rest)

/-- Reads fields up to the closing brace; at least one. -/
def readFields : Nat → Nat → List UInt8 → Except Stop (List (String × Json) × List UInt8)
  | 0, _, text => .error (.behind .tooDeep text)
  | fuel + 1, depth, text =>
    match text with
    | Mark.quote :: rest => do
      let (key, rest) ← readString rest
      match skipBlanks rest with
      | [] => throw (.behind .openObject [])
      | Mark.colon :: rest =>
        let (value, rest) ← readValue fuel depth rest
        match skipBlanks rest with
        | [] => throw (.behind .openObject [])
        | Mark.closeBrace :: rest => return ([(key, value)], rest)
        | Mark.comma :: rest =>
          let (fields, rest) ← readFields fuel depth (← afterComma Mark.closeBrace rest)
          return ((key, value) :: fields, rest)
        | rest => throw (.on .objectSeparator rest)
      | rest => throw (.on .missingColon rest)
    | text => .error (.on .unquotedKey text)

end

/-- The document in the bytes, blanks around it aside, or where reading stops. -/
def readAll (text : List UInt8) : Except Stop Json := do
  let (value, rest) ← readValue (2 * text.length + 2) maxDepth text
  match skipBlanks rest with
  | [] => return value
  | rest => throw (.on .trailingText rest)

/-- The document in the bytes, blanks around it aside. -/
def decode (bytes : List UInt8) : Except Fault Json := (readAll bytes).mapError (.ofStop bytes)

/-- The document a text holds. -/
def parse? (s : String) : Option Json := (decode (Utf8.encode s)).toOption

end TypedSql.Json

/-! Configuration text read by character: blanks, comments, quoted strings and keys. -/
namespace TypedSql.Toml

def isBlank (c : Char) : Bool := c = ' ' || c = '\t'

/-- Whether a character may stand in a comment or a string as it is. -/
def isPlain (c : Char) : Bool := c = '\t' || (32 ≤ c.toNat && c.toNat ≠ 127)

def skipBlanks (text : List Char) : List Char := text.dropWhile isBlank

/-- What follows a line break. -/
def afterBreak? : List Char → Option (List Char)
  | '\n' :: rest => some rest
  | '\r' :: '\n' :: rest => some rest
  | _ => none

/-- What follows a line that holds nothing more but blanks and a comment. -/
def endLine? (text : List Char) : Option (List Char) :=
  let rest := match skipBlanks text with
    | '#' :: comment => comment.dropWhile isPlain
    | rest => rest
  if rest.isEmpty then some [] else afterBreak? rest

/-- What follows blanks, line breaks and comments, each ended by a line break; the flag says that the
text is inside a comment. -/
def skipFiller : Bool → List Char → Option (List Char)
  | false, [] => some []
  | true, [] => none
  | _, '\n' :: rest => skipFiller false rest
  | _, '\r' :: '\n' :: rest => skipFiller false rest
  | false, '#' :: rest => skipFiller true rest
  | false, c :: rest => if isBlank c then skipFiller false rest else some (c :: rest)
  | true, c :: rest => if isPlain c then skipFiller true rest else none

/-- The value of a hexadecimal digit. -/
def hexDigit? (c : Char) : Option Nat :=
  if c.isDigit then some (c.toNat - '0'.toNat)
  else if 'a' ≤ c && c ≤ 'f' then some (c.toNat - 'a'.toNat + 10)
  else if 'A' ≤ c && c ≤ 'F' then some (c.toNat - 'A'.toNat + 10)
  else none

/-- The character with a code in hexadecimal digits, surrogates excluded. -/
private def ofCode? (digits : List Char) : Option Char := do
  let code ← digits.foldlM (fun n c => (hexDigit? c).map (n * 16 + ·)) 0
  if code < 0xd800 || (0xdfff < code && code ≤ 0x10ffff) then some (Char.ofNat code) else none

/-- The character of an escape of one letter. -/
private def letterEscape? (c : Char) : Option Char :=
  match c with
  | '"' | '\\' => some c
  | 'b' => some '\x08'
  | 't' => some '\t'
  | 'n' => some '\n'
  | 'f' => some '\x0c'
  | 'r' => some '\r'
  | _ => none

/-- The characters of a string in double quotes up to the closing one, and what follows it. -/
def readBasic : List Char → Option (List Char × List Char)
  | '"' :: rest => some ([], rest)
  | '\\' :: 'u' :: a :: b :: c :: d :: rest => do
    let code ← ofCode? [a, b, c, d]
    let (chars, rest) ← readBasic rest
    return (code :: chars, rest)
  | '\\' :: 'U' :: a :: b :: c :: d :: e :: f :: g :: h :: rest => do
    let code ← ofCode? [a, b, c, d, e, f, g, h]
    let (chars, rest) ← readBasic rest
    return (code :: chars, rest)
  | '\\' :: c :: rest => do
    let escaped ← letterEscape? c
    let (chars, rest) ← readBasic rest
    return (escaped :: chars, rest)
  | c :: rest =>
    if isPlain c && c ≠ '\\' then (readBasic rest).map fun (chars, rest) => (c :: chars, rest) else none
  | [] => none

/-- The characters of a string in single quotes up to the closing one, and what follows it. -/
def readLiteral : List Char → Option (List Char × List Char)
  | '\'' :: rest => some ([], rest)
  | c :: rest =>
    if isPlain c then (readLiteral rest).map fun (chars, rest) => (c :: chars, rest) else none
  | [] => none

/-- What the closing delimiter of a string of several lines leaves: up to two quotes right after it
still belong to the string. -/
private def closeLines (quote : Char) : List Char → List Char × List Char
  | a :: b :: rest =>
    if a = quote && b = quote then ([quote, quote], rest)
    else if a = quote then ([quote], b :: rest)
    else ([], a :: b :: rest)
  | [a] => if a = quote then ([quote], []) else ([], [a])
  | [] => ([], [])

/-- Whether a backslash before this text joins lines: only blanks stand before a line break. -/
private def joinsLines (text : List Char) : Bool := (afterBreak? (skipBlanks text)).isSome

/-- The characters of a string in triple double quotes; the flag says that a joint is being skipped. -/
def readBasicLines : Bool → List Char → Option (List Char × List Char)
  | _, '"' :: '"' :: '"' :: rest => some (closeLines '"' rest)
  | true, '\r' :: '\n' :: rest => readBasicLines true rest
  | false, '\r' :: '\n' :: rest => do
    let (chars, rest) ← readBasicLines false rest
    return ('\n' :: chars, rest)
  | _, '\\' :: 'u' :: a :: b :: c :: d :: rest => do
    let code ← ofCode? [a, b, c, d]
    let (chars, rest) ← readBasicLines false rest
    return (code :: chars, rest)
  | _, '\\' :: 'U' :: a :: b :: c :: d :: e :: f :: g :: h :: rest => do
    let code ← ofCode? [a, b, c, d, e, f, g, h]
    let (chars, rest) ← readBasicLines false rest
    return (code :: chars, rest)
  | _, '\\' :: c :: rest =>
    if joinsLines (c :: rest) then readBasicLines true (c :: rest)
    else do
      let escaped ← letterEscape? c
      let (chars, rest) ← readBasicLines false rest
      return (escaped :: chars, rest)
  | skipping, c :: rest =>
    if skipping && (isBlank c || c = '\n') then readBasicLines true rest
    else if (isPlain c && c ≠ '\\') || c = '\n' then do
      let (chars, rest) ← readBasicLines false rest
      return (c :: chars, rest)
    else none
  | _, [] => none

/-- The characters of a string in triple single quotes. -/
def readLiteralLines : List Char → Option (List Char × List Char)
  | '\'' :: '\'' :: '\'' :: rest => some (closeLines '\'' rest)
  | '\r' :: '\n' :: rest => (readLiteralLines rest).map fun (chars, rest) => ('\n' :: chars, rest)
  | c :: rest =>
    if isPlain c || c = '\n' then (readLiteralLines rest).map fun (chars, rest) => (c :: chars, rest)
    else none
  | [] => none

/-- The text without a line break at its start. -/
private def dropBreak (text : List Char) : List Char := (afterBreak? text).getD text

/-- The string a text starts with. -/
def readString : List Char → Option (List Char × List Char)
  | '"' :: '"' :: '"' :: rest => readBasicLines false (dropBreak rest)
  | '\'' :: '\'' :: '\'' :: rest => readLiteralLines (dropBreak rest)
  | '"' :: rest => readBasic rest
  | '\'' :: rest => readLiteral rest
  | _ => none

private def isKeyChar (c : Char) : Bool := c.isAlphanum || c = '_' || c = '-'

/-- A part of a key, bare or quoted. -/
private def readPart : List Char → Option (String × List Char)
  | '"' :: rest => (readBasic rest).map fun (chars, rest) => (String.ofList chars, rest)
  | '\'' :: rest => (readLiteral rest).map fun (chars, rest) => (String.ofList chars, rest)
  | text =>
    match text.takeWhile isKeyChar with
    | [] => none
    | chars => some (String.ofList chars, text.dropWhile isKeyChar)

/-- Reads a key of at most this many parts between points, blanks around each part dropped. -/
def readKey : Nat → List Char → Option (List String × List Char)
  | 0, _ => none
  | parts + 1, text => do
    let (part, rest) ← readPart (skipBlanks text)
    match skipBlanks rest with
    | '.' :: rest => do
      let (path, rest) ← readKey parts rest
      return (part :: path, rest)
    | rest => return ([part], rest)

end TypedSql.Toml

import TypedSql.Sql.Token.Basic
import TypedSql.Text.Letter

/-! The token a text starts with: literals, names, comments, operators and placeholders. -/
namespace TypedSql.Sql
open Text

/-- The value of a hexadecimal digit. -/
def hexDigit? (c : Char) : Option Nat :=
  if c.isDigit then some (c.toNat - '0'.toNat)
  else if 'a' ≤ c && c ≤ 'f' then some (c.toNat - 'a'.toNat + 10)
  else if 'A' ≤ c && c ≤ 'F' then some (c.toNat - 'A'.toNat + 10)
  else none

def isCodePoint (n : Nat) : Bool := n < 0xd800 || (0xe000 ≤ n && n ≤ 0x10ffff)

/-- The number written in digits of a base, a plus sign in front allowed. -/
def readDigits? (base : Nat) (text : List Char) : Option Nat :=
  let digits := match text with
    | '+' :: rest => rest
    | _ => text
  if digits.isEmpty then none
  else digits.foldlM (fun n c => do
    let d ← hexDigit? c
    if d < base then some (n * base + d) else none) 0

/-- What follows the closing quote; a doubled quote does not close, nor, where backslashes escape,
does a quote behind one. -/
def afterQuote (quote : Char) (escapes : Bool) : List Char → Option (List Char)
  | [] => none
  | [c] => if c = quote then some [] else none
  | c :: d :: rest =>
    if c = quote then if d = quote then afterQuote quote escapes rest else some (d :: rest)
    else if c = '\\' && escapes then afterQuote quote escapes rest
    else afterQuote quote escapes (d :: rest)

/-- How many characters an escape takes behind its backslash; `none` if it stands for no character
or for the null character. -/
def escapeLength? : List Char → Option Nat
  | [] => none
  | 'u' :: rest => codePoint 4 rest
  | 'U' :: rest => codePoint 8 rest
  | 'x' :: rest =>
    let digits := (rest.take 2).takeWhile fun c => (hexDigit? c).isSome
    if digits.isEmpty then some 1 else byte 16 digits 1
  | c :: rest =>
    if '0' ≤ c && c ≤ '7' then
      byte 8 (c :: (rest.take 2).takeWhile fun d => '0' ≤ d && d ≤ '7') 0
    else if c = '\x00' then none
    else some 1
where
  /-- A code point of fixed width. -/
  codePoint (width : Nat) (text : List Char) : Option Nat := do
    if text.length < width then none
    let n ← readDigits? 16 (text.take width)
    if n ≠ 0 && isCodePoint n then some (width + 1) else none
  /-- A character of one byte; higher bits are dropped. -/
  byte (base : Nat) (digits : List Char) (extra : Nat) : Option Nat := do
    let n ← readDigits? base digits
    if n % 256 ≠ 0 && n % 256 ≤ 127 then some (digits.length + extra) else none

/-- What follows the closing quote of a string with escapes, the next `skip` characters passed over. -/
def afterEscapedString (skip : Nat) : List Char → Option (List Char)
  | [] => none
  | c :: rest =>
    match skip with
    | n + 1 => afterEscapedString n rest
    | 0 =>
      if c = '\'' then
        if rest.head? = some '\'' then afterEscapedString 1 rest else some rest
      else if c = '\\' then
        match escapeLength? rest with
        | some n => afterEscapedString n rest
        | none => none
      else afterEscapedString 0 rest

/-- What a scan that fails leaves unread. -/
abbrev ScanFault := TokenProblem × List Char

/-- Reads a code point of a fixed count of digits. -/
def checkCodePoint : Nat → Nat → List Char → Except ScanFault Unit
  | 0, n, text => if isCodePoint n then .ok () else .error (.badCodePoint n, text)
  | _ + 1, _, [] => .error (.missingHexDigit, [])
  | digits + 1, n, c :: rest =>
    match hexDigit? c with
    | some d => checkCodePoint digits (n * 16 + d) rest
    | none => .error (.badHexDigit c, rest)

/-- What follows the closing quote of a string with code points, the next `skip` characters passed
over. -/
def afterUnicodeString (skip : Nat) : List Char → Except ScanFault (List Char)
  | [] => .error (.openUnicodeString, [])
  | c :: rest =>
    match skip with
    | n + 1 => afterUnicodeString n rest
    | 0 =>
      if c = '\'' then
        if rest.head? = some '\'' then afterUnicodeString 1 rest else .ok rest
      else if c = '\\' then
        match rest with
        | '\\' :: _ => afterUnicodeString 1 rest
        | '+' :: digits => do checkCodePoint 6 0 digits; afterUnicodeString 7 rest
        | _ => do checkCodePoint 4 0 rest; afterUnicodeString 4 rest
      else afterUnicodeString 0 rest

/-- What follows two dollar signs. -/
def afterDollars : List Char → Option (List Char)
  | '$' :: '$' :: rest => some rest
  | _ :: rest => afterDollars rest
  | [] => none

/-- What follows the closing tag. `pending` is the part of the tag still to come behind a dollar
sign; a character that breaks a tag off is passed over. -/
def afterTag (tag : List Char) (pending : Option (List Char)) : List Char → Option (List Char)
  | [] => none
  | c :: rest =>
    match pending with
    | none => afterTag tag (if c = '$' then some tag else none) rest
    | some [] => if c = '$' then some rest else afterTag tag none rest
    | some (d :: tail) => afterTag tag (if c = d then some tail else none) rest

/-- What follows the end of a comment that nests. A star or slash belongs to the mark before it and
to the one behind it. -/
def afterComment (last : Char) (depth : Nat) : List Char → Option (List Char)
  | [] => none
  | c :: rest =>
    if last = '/' && c = '*' then afterComment c (depth + 1) rest
    else if last = '*' && c = '/' then
      match depth with
      | 0 => some rest
      | depth + 1 => afterComment c depth rest
    else afterComment c depth rest

/-- The characters that operators are made of. -/
def isOperatorChar (c : Char) : Bool := c ∈ "+-*/<>=~!@#%^&|`?".toList

def isWordStart (c : Char) : Bool := isLetter c || c = '_'
def isWordChar (c : Char) : Bool := isLetter c || c.isDigit || c = '$' || c = '_'
def isTagChar (c : Char) : Bool := isLetter c || isNumeral c || c = '_'

/-- What follows a number: digits, a point, an exponent, a length mark; or hexadecimal digits. -/
def afterNumber (text : List Char) : List Char :=
  let rest := text.dropWhile Char.isDigit
  match text.length - rest.length, text, rest with
  | 1, '0' :: _, 'x' :: digits => digits.dropWhile fun c => (hexDigit? c).isSome
  | _, _, _ =>
    let rest := match rest with
      | '.' :: digits => digits.dropWhile Char.isDigit
      | _ => rest
    if rest.length + 1 = text.length && text.head? = some '.' then rest
    else
      let rest := match rest with
        | 'e' :: exponent | 'E' :: exponent =>
          let digits := match exponent with
            | '+' :: digits | '-' :: digits => digits
            | _ => exponent
          if (digits.head?.map Char.isDigit).getD false then digits.dropWhile Char.isDigit else rest
        | _ => rest
      match rest with
      | 'L' :: rest => rest
      | _ => rest

/-- What follows an operator that takes in only the characters it is spelled with. -/
def afterFixedOperator (c : Char) (rest : List Char) : List Char :=
  match c, rest with
  | '=', '>' :: r | '=', '=' :: r | '!', '=' :: r | '!', '!' :: r => r
  | '!', '~' :: '~' :: '*' :: r | '!', '~' :: '~' :: r | '!', '~' :: '*' :: r | '!', '~' :: r => r
  | ':', ':' :: r | ':', '=' :: r | '^', '@' :: r => r
  | '@', '>' :: r | '@', '?' :: r | '@', '@' :: r => r
  | _, _ => rest

def close (token : Token) (problem : TokenProblem) (start : List Char) :
    Option (List Char) → Except ScanFault (Token × List Char)
  | some rest => .ok (token, rest)
  | none => .error (problem, start)

/-- What a dollar sign begins: a string between dollar signs or tags, or a parameter. -/
def scanDollar (rest : List Char) : Except ScanFault (Token × List Char) :=
  match rest with
  | '$' :: body => close .literal .openDollarString [] (afterDollars body)
  | _ =>
    let tag := rest.takeWhile isTagChar
    match rest.dropWhile isTagChar with
    | '$' :: body => close .literal .openTaggedString [] (afterTag tag none body)
    | rest => .ok (.parameter (String.ofList tag), rest)

/-- The token that starts with a character, and what follows it. A letter in front of a quote
selects the kind of literal; a placeholder takes in the character behind it. -/
def scan (c : Char) (rest : List Char) : Except ScanFault (Token × List Char) :=
  match c, rest with
  | '\r', '\n' :: r => .ok (.blank, r)
  | 'B', '\'' :: r | 'b', '\'' :: r => close .literal .openString rest (afterQuote '\'' false r)
  | 'B', '"' :: r | 'b', '"' :: r => close .literal .openString rest (afterQuote '"' false r)
  | 'N', '\'' :: r | 'n', '\'' :: r | 'X', '\'' :: r | 'x', '\'' :: r =>
    close .literal .openString rest (afterQuote '\'' true r)
  | 'E', '\'' :: r | 'e', '\'' :: r =>
    close .literal .openEscapedString (c :: rest) (afterEscapedString 0 r)
  | 'U', '&' :: '\'' :: r | 'u', '&' :: '\'' :: r => (Token.literal, ·) <$> afterUnicodeString 0 r
  | '\'', r => close .literal .openString (c :: r) (afterQuote '\'' false r)
  | '"', r => close .quotedName .openQuotedName (c :: r) (afterQuote '"' false r)
  | '-', '-' :: r => .ok (.comment, (r.dropWhile (· ≠ '\n')).drop 1)
  | '/', '*' :: r => close .comment .openComment [] (afterComment ' ' 0 r)
  | '?', '|' :: r | '?', '&' :: r => .ok (.symbol, r)
  | '?', r => .ok (.placeholder, r.drop 1)
  | '$', r => scanDollar r
  | _, r =>
    if c.isDigit || c = '.' then .ok (.number, afterNumber (c :: r))
    else if isWordStart c then .ok (.word, r.dropWhile isWordChar)
    else if isBlank c then .ok (.blank, r)
    else if c ∈ ['-', '|', '<', '>', '&', '~', '#', '%'] then
      .ok (.symbol, r.dropWhile isOperatorChar)
    else .ok (.symbol, afterFixedOperator c r)

/-- The tokens of a text that starts at `l`, its first `skip` characters part of an earlier token. -/
def lexemesFrom (l : Location) (skip : Nat) : List Char → Except TokenFault (List Lexeme)
  | [] => .ok []
  | c :: rest =>
    match skip with
    | n + 1 => lexemesFrom (l.advance c) n rest
    | 0 =>
      match scan c rest with
      | .ok (token, after) =>
        (⟨token, l⟩ :: ·) <$> lexemesFrom (l.advance c) (rest.length - after.length) rest
      | .error (problem, unread) =>
        .error ⟨problem, l.advanceAll ((c :: rest).take (rest.length + 1 - unread.length))⟩

/-- The tokens of a text, or the first fault in it. -/
def lexemes (text : List Char) : Except TokenFault (List Lexeme) := lexemesFrom .start 0 text

end TypedSql.Sql

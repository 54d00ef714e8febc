/-! Bytes that structure documents: punctuation, the signs in numbers, digits and blanks. -/
namespace TypedSql.Json.Mark

@[match_pattern] abbrev quote : UInt8 := 0x22
@[match_pattern] abbrev backslash : UInt8 := 0x5c
@[match_pattern] abbrev comma : UInt8 := 0x2c
@[match_pattern] abbrev colon : UInt8 := 0x3a
@[match_pattern] abbrev closeBracket : UInt8 := 0x5d
@[match_pattern] abbrev closeBrace : UInt8 := 0x7d
@[match_pattern] abbrev plus : UInt8 := 0x2b
@[match_pattern] abbrev minus : UInt8 := 0x2d
@[match_pattern] abbrev point : UInt8 := 0x2e
@[match_pattern] abbrev zero : UInt8 := 0x30
@[match_pattern] abbrev smallE : UInt8 := 0x65
@[match_pattern] abbrev capitalE : UInt8 := 0x45
@[match_pattern] abbrev smallU : UInt8 := 0x75

def isDigit (b : UInt8) : Bool := 0x30 ≤ b && b ≤ 0x39

/-- The value of a digit. -/
def digit (b : UInt8) : Nat := b.toNat - 0x30

/-- Space, line feed, tabulator and carriage return. -/
def isBlank (b : UInt8) : Bool := b = 0x20 || b = 0x0a || b = 0x09 || b = 0x0d

def skipBlanks (text : List UInt8) : List UInt8 := text.dropWhile isBlank

/-- The value of a hexadecimal digit. -/
def hexValue (b : UInt8) : Option Nat :=
  if isDigit b then some (digit b)
  else if 0x61 ≤ b && b ≤ 0x66 then some (b.toNat - 0x61 + 10)
  else if 0x41 ≤ b && b ≤ 0x46 then some (b.toNat - 0x41 + 10)
  else none

end TypedSql.Json.Mark

import TypedSql.Protocol.Reader

/-! Decimal numbers of any size, sent as groups of four digits. -/
namespace TypedSql.Protocol.Numeric

/-- Sign words. -/
def positive : Nat := 0
def negative : Nat := 0x4000
def notANumber : Nat := 0xc000
def infinity : Nat := 0xd000
def negativeInfinity : Nat := 0xf000

/-- A number as sent: the first group counts `10000 ^ weight`, and `scale` digits follow the point. -/
structure Parts where
  weight : Int
  negative : Bool
  scale : Nat
  groups : List Int
  deriving DecidableEq, Repr

/-- The group at an index; groups that were not sent are zero. -/
def Parts.group (p : Parts) (i : Int) : Int :=
  if i < 0 then 0 else (p.groups[i.toNat]?).getD 0

/-- A group of four places, a sign taking one of them. -/
def groupText (n : Int) : List Char :=
  let digits := Nat.toDigits 10 n.natAbs
  if n < 0 then '-' :: (List.replicate (3 - digits.length) '0' ++ digits)
  else List.replicate (4 - digits.length) '0' ++ digits

/-- The digits before the point. -/
def Parts.wholeText (p : Parts) : List Char :=
  if p.weight < 0 then ['0']
  else (toString (p.group 0)).toList ++
    (List.range p.weight.toNat).flatMap fun (i : Nat) => groupText (p.group (i + 1))

/-- The digits after the point, as many as the scale says. -/
def Parts.fractionText (p : Parts) : List Char :=
  let groups := (List.range (p.scale / 4 + 1)).flatMap fun (i : Nat) =>
    groupText (p.group (p.weight + 1 + i))
  groups.take p.scale

def Parts.text (p : Parts) : List Char :=
  (if p.negative then ['-'] else []) ++ p.wholeText ++
    if p.scale = 0 then [] else '.' :: p.fractionText

/-- The text of a number's bytes. -/
def text (raw : List UInt8) : Except CodecProblem (List Char) := do
  let (count, rest) ← readSigned 2 raw
  let (weight, rest) ← readSigned 2 rest
  let (sign, rest) ← readUnsigned 2 rest
  let (scale, rest) ← readUnsigned 2 rest
  if sign = notANumber then return "NaN".toList
  if sign = infinity then return "Infinity".toList
  if sign = negativeInfinity then return "-Infinity".toList
  if sign ≠ positive ∧ sign ≠ negative then throw (.numericSign sign)
  let (groups, _) ← readMany (readSigned 2) count.toNat rest
  return Parts.text ⟨weight, sign = negative, scale, groups⟩

end TypedSql.Protocol.Numeric

import TypedSql.Protocol.Problem

/-! Readers of bytes: each gives a value and the bytes behind it. Numbers have their high byte first. -/
namespace TypedSql.Protocol

abbrev Reader (α : Type) := List UInt8 → Except CodecProblem (α × List UInt8)

/-- The number that bytes write. -/
def unsigned (bytes : List UInt8) : Nat := bytes.foldl (fun n b => n * 256 + b.toNat) 0

/-- The number that bytes write in two's complement. -/
def signed (bytes : List UInt8) : Int := (unsigned bytes : Int).bmod (Nat.pow 256 bytes.length)

/-- The low bytes of a number, in two's complement. -/
def bytesOf (width : Nat) (n : Int) : List UInt8 :=
  (List.range width).map fun i => (n / Nat.pow 256 (width - 1 - i) % 256).toNat.toUInt8

/-- The next bytes, as many as asked for. -/
def take (count : Nat) : Reader (List UInt8) := fun raw =>
  if count ≤ raw.length then .ok (raw.take count, raw.drop count) else .error .truncated

def readUnsigned (width : Nat) : Reader Nat := fun raw => do
  let (bytes, rest) ← take width raw
  return (unsigned bytes, rest)

def readSigned (width : Nat) : Reader Int := fun raw => do
  let (bytes, rest) ← take width raw
  return (signed bytes, rest)

/-- The bytes of a value behind their count; a negative count stands for null. -/
def readValue : Reader (Option (List UInt8)) := fun raw => do
  let (count, rest) ← readSigned 4 raw
  if count < 0 then return (none, rest)
  let (bytes, rest) ← take count.toNat rest
  return (some bytes, rest)

/-- As many values in a row as asked for. -/
def readMany {α : Type} (read : Reader α) : Nat → Reader (List α)
  | 0, raw => .ok ([], raw)
  | count + 1, raw => do
    let (a, rest) ← read raw
    let (others, rest) ← readMany read count rest
    return (a :: others, rest)

end TypedSql.Protocol

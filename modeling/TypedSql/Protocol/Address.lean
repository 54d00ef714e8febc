import TypedSql.Protocol.Reader

/-! Network and hardware addresses as text. -/
namespace TypedSql.Protocol.Address

/-- Four numbers with points between them. -/
def v4Text (octets : List UInt8) : String :=
  ".".intercalate (octets.map fun b => toString b.toNat)

/-- The sixteen-bit groups of an address. -/
def groups : List UInt8 → List Nat
  | a :: b :: rest => (a.toNat * 256 + b.toNat) :: groups rest
  | _ => []

/-- Start and length of the first longest run of zeros. The state is the index, the run that ends
here and the longest run so far. -/
def longestZeros : Nat → Nat × Nat → Nat × Nat → List Nat → Nat × Nat
  | _, _, best, [] => best
  | i, (start, length), best, g :: rest =>
    if g = 0 then
      let run := (if length = 0 then i else start, length + 1)
      longestZeros (i + 1) run (if best.2 < run.2 then run else best) rest
    else longestZeros (i + 1) (0, 0) best rest

def groupsText (gs : List Nat) : String := ":".intercalate (gs.map fun g => Text.padded 16 1 g)

/-- Groups with colons between them; two colons stand for the first longest run of at least two
zeros. An address of the older kind within one of the newer keeps its points. -/
def v6Text (octets : List UInt8) : String :=
  let gs := groups octets
  if gs.take 6 = [0, 0, 0, 0, 0, 0xffff] then "::ffff:" ++ v4Text (octets.drop 12)
  else
    let (start, length) := longestZeros 0 (0, 0) (0, 0) gs
    if 1 < length then groupsText (gs.take start) ++ "::" ++ groupsText (gs.drop (start + length))
    else groupsText gs

/-- The text of a network address: the count of leading bits follows unless all are meant. -/
def networkText (raw : List UInt8) (alwaysBits : Bool) : Except CodecProblem String := do
  let (family, rest) ← readUnsigned 1 raw
  let (bits, rest) ← readUnsigned 1 rest
  let (_, rest) ← readUnsigned 1 rest
  let (length, octets) ← readUnsigned 1 rest
  if octets.length ≠ length then throw .addressLength
  let (address, allBits) ← match family, length with
    | 2, 4 => pure (v4Text octets, 32)
    | 3, 16 => pure (v6Text octets, 128)
    | _, _ => throw (.addressFamily family)
  return if alwaysBits || bits ≠ allBits then address ++ s!"/{bits}" else address

/-- The text of a hardware address. -/
def hardwareText (raw : List UInt8) : Except CodecProblem String :=
  if raw.length = 6 then .ok (":".intercalate (raw.map fun b => Text.padded 16 2 b.toNat))
  else .error .hardwareAddressLength

end TypedSql.Protocol.Address

import TypedSql.Protocol.Leaf

/-! Protocol values read from the binary form of results. -/
namespace TypedSql.Protocol

/-- Extents of an array, the outermost first; a negative one counts as zero. -/
def readExtents (count : Nat) : Reader (List Nat) :=
  readMany (fun raw => do
    let (length, rest) ← readSigned 4 raw
    let (_, rest) ← readSigned 4 rest
    return (length.toNat, rest)) count

/-- A product in 64 bits. -/
def checkedMul (m n : Nat) : Except CodecProblem Nat :=
  if m * n < Nat.pow 2 64 then .ok (m * n) else .error .overflow

/-- The count of elements in a box of these extents, multiplied from the outermost inwards. -/
def elementCount (extents : List Nat) : Except CodecProblem Nat := extents.foldlM checkedMul 1

/-- The count of elements in an array; without dimensions there are none. -/
def totalCount (extents : List Nat) : Except CodecProblem Nat :=
  if extents.isEmpty then .ok 0 else elementCount extents

/-- A list cut into a count of pieces of one size; the last ones may be short. -/
def pieces {α : Type} (size : Nat) : Nat → List α → List (List α)
  | 0, _ => []
  | count + 1, items => items.take size :: pieces size count (items.drop size)

/-- Elements in row order put into arrays within arrays. The count of what is within one item is taken
before there is an item, and again within each. -/
def nest (element : String) : List Nat → List Wire → Except CodecProblem Wire
  | extent :: next :: inner, flat => do
    let size ← elementCount (next :: inner)
    return .array element (← (pieces size extent flat).mapM (nest element (next :: inner)))
  | _, flat => .ok (.array element flat)

/-- The next value of a type, null where it is marked so. -/
def readWire (decode : List UInt8 → Except CodecProblem Wire) : Reader Wire := fun raw => do
  match ← readValue raw with
  | (some bytes, rest) => return (← decode bytes, rest)
  | (none, rest) => return (.null, rest)

/-- An array: the count of dimensions, two words that are passed over, the extents with their lower
bounds, and the elements in row order. The room that is set aside for them is not counted. -/
def decodeArray (element : String) (decode : List UInt8 → Except CodecProblem Wire)
    (raw : List UInt8) : Except CodecProblem Wire := do
  let (dimensions, rest) ← readSigned 4 raw
  let (_, rest) ← readSigned 4 rest
  let (_, rest) ← readSigned 4 rest
  let (extents, rest) ← readExtents dimensions.toNat rest
  let total ← totalCount extents
  let (flat, _) ← readMany (readWire decode) total rest
  nest element extents flat

/-- The bounds that the flags of a range announce. -/
structure RangeFlags where
  bits : Nat

namespace RangeFlags

def isEmpty (f : RangeFlags) : Bool := f.bits.testBit 0
def lowerIncluded (f : RangeFlags) : Bool := f.bits.testBit 1
def upperIncluded (f : RangeFlags) : Bool := f.bits.testBit 2
def lowerUnbounded (f : RangeFlags) : Bool := f.bits.testBit 3
def upperUnbounded (f : RangeFlags) : Bool := f.bits.testBit 4

end RangeFlags

/-- One end of a range; an end without a bound has no bytes. -/
def readBound (decode : List UInt8 → Except CodecProblem Wire) (unbounded included : Bool) :
    Reader (Bound Wire) := fun raw =>
  if unbounded then .ok (.unbounded, raw)
  else do
    let (w, rest) ← readWire decode raw
    return (if included then .inclusive w else .exclusive w, rest)

def decodeRange (decode : List UInt8 → Except CodecProblem Wire) (raw : List UInt8) :
    Except CodecProblem Wire := do
  let (bits, rest) ← readUnsigned 1 raw
  let flags : RangeFlags := ⟨bits⟩
  if flags.isEmpty then return .range .empty
  let (lower, rest) ← readBound decode flags.lowerUnbounded flags.lowerIncluded rest
  let (upper, _) ← readBound decode flags.upperUnbounded flags.upperIncluded rest
  return .range (.between lower upper)

mutual

/-- The value in the bytes of a result. Bytes behind the end of an array, record or range are
passed over. -/
def ServerType.decode : ServerType → List UInt8 → Except CodecProblem Wire
  | ⟨name, _, kind⟩, raw =>
    match kind with
    | .array element => decodeArray element.name element.decode raw
    | .composite fields => do
      let (count, rest) ← readSigned 4 raw
      if count ≠ fields.length then throw (.recordWidth count fields.length)
      return .record (← decodeFields fields rest)
    | .range subtype => decodeRange subtype.decode raw
    | .domain base => base.decode raw
    | .enum _ => .scalar <$> Form.text.decode raw
    | .simple form => .scalar <$> form.decode raw
    | .pseudo => .error (.noValues name)

/-- The fields of a record, each behind the identifier of its type. -/
def decodeFields : List (String × ServerType) → List UInt8 → Except CodecProblem (List Wire)
  | [], _ => .ok []
  | (_, type) :: others, raw => do
    let (_, rest) ← readSigned 4 raw
    let (w, rest) ← readWire type.decode rest
    return w :: (← decodeFields others rest)

end

end TypedSql.Protocol

import TypedSql.Protocol.ServerType
import TypedSql.Protocol.Reader
import TypedSql.Protocol.Numeric
import TypedSql.Protocol.Address
import TypedSql.Protocol.Interval
import TypedSql.Value.Literal
import TypedSql.Json.Parser

/-! The bytes of leaf values, in the binary form of their type. -/
namespace TypedSql.Protocol
open Calendar Floating

/-- A number that fills all the bytes; what is left over is a problem of its own. -/
def whole (width : Nat) (excess : CodecProblem) (raw : List UInt8) :
    Except CodecProblem (List UInt8) :=
  if raw.length < width then .error .short
  else if width < raw.length then .error excess
  else .ok raw

def decodeText (raw : List UInt8) : Except CodecProblem String :=
  (Text.Utf8.decode raw).mapError .malformedText

def decodeDocument (raw : List UInt8) : Except CodecProblem Json :=
  (Json.decode raw).mapError .malformedDocument

def decodeTimestamp (raw : List UInt8) : Except CodecProblem Timestamp := do
  match Timestamp.ofMicros? (signed (← whole 8 (.undrained .timestamp) raw)) with
  | some t => return t
  | none => throw .tooLargeToDecode

/-- The scalar in the bytes of a simple type. -/
def Form.decode (form : Form) (raw : List UInt8) : Except CodecProblem Scalar :=
  match form with
  | .bool =>
    match raw with
    | [b] => .ok (.bool (b ≠ 0))
    | _ => .error .wrongSize
  | .int2 => do return .int16 (.ofInt (signed (← whole 2 .wrongSize raw)))
  | .int4 => do return .int32 (.ofInt (signed (← whole 4 .wrongSize raw)))
  | .int8 => do return .int64 (.ofInt (signed (← whole 8 .wrongSize raw)))
  | .oid => do return .int64 (.ofInt (unsigned (← whole 4 .wrongSize raw)))
  | .float4 => do return .float32 ⟨(unsigned (← whole 4 .wrongSize raw)).toUInt32⟩
  | .float8 => do return .float64 ⟨(unsigned (← whole 8 .wrongSize raw)).toUInt64⟩
  | .bytea => .ok (.bytes raw)
  | .uuid => if raw.length = 16 then .ok (.uuid (.ofBytes raw)) else .error .uuidSize
  | .date => do
    match Date.ofDays? (signed (← whole 4 (.undrained .date) raw)) with
    | some d => return .date d
    | none => throw .tooLargeToDecode
  | .time => do return .time (.ofMicros (signed (← whole 8 (.undrained .time) raw)))
  | .timestamp => .timestamp <$> decodeTimestamp raw
  | .timestamptz => .timestampTz <$> decodeTimestamp raw
  | .json => .json <$> decodeDocument raw
  | .jsonb =>
    match raw with
    | [] => .error .short
    | version :: rest => if version = 1 then .json <$> decodeDocument rest else .error .jsonVersion
  | .numeric => (.text ∘ String.ofList) <$> Numeric.text raw
  | .inet => .text <$> Address.networkText raw false
  | .cidr => .text <$> Address.networkText raw true
  | .macaddr => .text <$> Address.hardwareText raw
  | .interval => .text <$> Interval.text raw
  | .text => .text <$> decodeText raw

/-- Whether a scalar is sent in the binary form; all others are sent as text. -/
def Form.carries (form : Form) : Scalar → Bool
  | .bool _ => form = .bool
  | .int16 _ | .int32 _ | .int64 _ => form ∈ [.int2, .int4, .int8]
  | .float32 _ | .float64 _ => form ∈ [.float4, .float8]
  | .bytes _ => form = .bytea
  | .uuid _ => form = .uuid
  | .date _ => form = .date
  | .time _ => form = .time
  | .timestamp _ => form = .timestamp
  | .timestampTz _ => form = .timestamptz
  | .json _ => form ∈ [.json, .jsonb]
  | .text _ => false

/-- An integer in the width of its form. -/
def encodeInt (form : Form) (n : Int) : Except CodecProblem (List UInt8) :=
  match form with
  | .int2 => if Scalar.fits 16 n then .ok (bytesOf 2 n) else .error .integerRange
  | .int4 => if Scalar.fits 32 n then .ok (bytesOf 4 n) else .error .integerRange
  | _ => .ok (bytesOf 8 n)

def encodeDouble (form : Form) (x : Double) : List UInt8 :=
  if form = .float4 then bytesOf 4 x.toSingle.bits.toNat else bytesOf 8 x.bits.toNat

def encodeSingle (form : Form) (x : Single) : List UInt8 :=
  if form = .float8 then bytesOf 8 x.toDouble.bits.toNat else bytesOf 4 x.bits.toNat

def encodeTimestamp (t : Timestamp) : Except CodecProblem (List UInt8) :=
  if Scalar.fits 64 t.toMicros then .ok (bytesOf 8 t.toMicros) else .error .tooLargeToTransmit

/-- The bytes of a scalar in a form that carries it. -/
def Form.encode (form : Form) : Scalar → Except CodecProblem (List UInt8)
  | .bool b => .ok [if b then 1 else 0]
  | .int16 n => encodeInt form n.toInt
  | .int32 n => encodeInt form n.toInt
  | .int64 n => encodeInt form n.toInt
  | .float32 x => .ok (encodeSingle form x)
  | .float64 x => .ok (encodeDouble form x)
  | .bytes b => .ok b
  | .uuid u => .ok u.toBytes
  | .date d =>
    if Scalar.fits 32 d.toDays then .ok (bytesOf 4 d.toDays) else .error .tooLargeToTransmit
  | .time t => .ok (bytesOf 8 (t.toNanos / 1000))
  | .timestamp t => encodeTimestamp t
  | .timestampTz t => encodeTimestamp t
  | .json j =>
    let text := Text.Utf8.encode j.text
    .ok (if form = .jsonb then 1 :: text else text)
  | .text s => .ok (Text.Utf8.encode s)

end TypedSql.Protocol

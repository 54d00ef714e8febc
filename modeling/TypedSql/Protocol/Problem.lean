import TypedSql.Text.Utf8
import TypedSql.Text.Hex
import TypedSql.Json.Fault

/-! What can be wrong with the bytes of a value. -/
namespace TypedSql.Protocol

/-- Values whose bytes have a fixed count. -/
inductive FixedWidth where
  | date
  | time
  | timestamp
  deriving DecidableEq, Repr

def FixedWidth.name : FixedWidth → String
  | date => "date"
  | time => "time"
  | timestamp => "timestamp"

inductive CodecProblem where
  /-- A part of a value ends before its bytes do. -/
  | truncated
  /-- A leaf ends before its bytes do. -/
  | short
  | wrongSize
  | undrained (what : FixedWidth)
  | uuidSize
  | tooLargeToDecode
  | tooLargeToTransmit
  | jsonVersion
  | noValues (type : String)
  | recordWidth (count : Int) (expected : Nat)
  | numericSign (bits : Nat)
  | addressLength
  | addressFamily (family : Nat)
  | hardwareAddressLength
  | shortInterval
  | malformedText (fault : Text.Utf8.Fault)
  | malformedDocument (fault : Json.Fault)
  | integerRange
  /-- A count does not fit in 64 bits. It is not reported as a problem of the bytes: what is being done
  breaks off. -/
  | overflow
  deriving DecidableEq, Repr

def CodecProblem.message : CodecProblem → String
  | truncated => "truncated value"
  | short => "failed to fill whole buffer"
  | wrongSize => "invalid buffer size"
  | undrained what => s!"invalid message length: {what.name} not drained"
  | uuidSize => "invalid message length: uuid size mismatch"
  | tooLargeToDecode => "value too large to decode"
  | tooLargeToTransmit => "value too large to transmit"
  | jsonVersion => "unsupported JSONB encoding version"
  | noValues type => s!"cannot decode values of type {type} (Pseudo)"
  | recordWidth count expected => s!"record has {count} fields, expected {expected}"
  | numericSign bits => "invalid numeric sign 0x" ++ Text.padded 16 1 bits
  | addressLength => "inet address length mismatch"
  | addressFamily family => s!"unknown inet family {family}"
  | hardwareAddressLength => "macaddr must be 6 bytes"
  | shortInterval => "truncated interval"
  | malformedText fault => fault.message
  | malformedDocument fault => fault.message
  | integerRange => "out of range integral type conversion attempted"
  | overflow => "attempt to multiply with overflow"

end TypedSql.Protocol

import TypedSql.Value.Native
import TypedSql.Calendar.Timestamp
import TypedSql.Json.Printer

/-! Leaf values, their native forms, and the conversions that lose nothing. -/
namespace TypedSql
open Floating Calendar

/-- A 128-bit identifier. -/
structure Uuid where
  bits : BitVec 128
  deriving DecidableEq, Repr

namespace Uuid

/-- The sixteen bytes, the first the most significant. -/
def toBytes (u : Uuid) : List UInt8 :=
  (List.range 16).map fun i => (u.bits.toNat / Nat.pow 256 (15 - i)).toUInt8

def ofBytes (bytes : List UInt8) : Uuid :=
  ⟨BitVec.ofNat 128 (bytes.foldl (fun n b => n * 256 + b.toNat) 0)⟩

/-- Groups of 8, 4, 4, 4 and 12 digits. -/
def text (u : Uuid) : String :=
  let digits := (Text.padded 16 32 u.bits.toNat).toList
  "-".intercalate ([(0, 8), (8, 4), (12, 4), (16, 4), (20, 12)].map fun (start, count) =>
    String.ofList ((digits.drop start).take count))

end Uuid

/-- A leaf value, common to the values of callers and those of the protocol. -/
inductive Scalar where
  | bool (b : Bool)
  | int16 (n : Int16)
  | int32 (n : Int32)
  | int64 (n : Int64)
  | float32 (x : Single)
  | float64 (x : Double)
  | text (s : String)
  | bytes (b : List UInt8)
  | uuid (u : Uuid)
  | date (d : Date)
  | time (t : Time)
  | timestamp (t : Timestamp)
  | timestampTz (t : Timestamp)
  | json (j : Json)

namespace Scalar

def native : Scalar → Native
  | bool _ => .bool
  | int16 _ => .int16
  | int32 _ => .int32
  | int64 _ => .int64
  | float32 _ => .float32
  | float64 _ => .float64
  | text _ => .text
  | bytes _ => .bytes
  | uuid _ => .uuid
  | date _ => .date
  | time _ => .time
  | timestamp _ => .timestamp
  | timestampTz _ => .timestampTz
  | json _ => .json

/-- The number an integer scalar of any width holds. -/
def toInt? : Scalar → Option Int
  | int16 n => some n.toInt
  | int32 n => some n.toInt
  | int64 n => some n.toInt
  | _ => none

/-- Whether a number fits in the given count of bits, one of them the sign. -/
def fits (bits : Nat) (n : Int) : Bool := -(Nat.pow 2 (bits - 1) : Int) ≤ n && n < Nat.pow 2 (bits - 1)

/-- The integer scalar of a native form that holds a number, if there is one. -/
def ofInt? (n : Int) : Native → Option Scalar
  | .int16 => if fits 16 n then some (int16 (.ofInt n)) else none
  | .int32 => if fits 32 n then some (int32 (.ofInt n)) else none
  | .int64 => if fits 64 n then some (int64 (.ofInt n)) else none
  | _ => none

/-- The scalar in another native form. Integers change width where they fit and single precision
widens to double; nothing else converts. -/
def coerce (s : Scalar) (target : Native) : Option Scalar :=
  if s.native = target then some s
  else match s.toInt?, s, target with
    | some n, _, _ => ofInt? n target
    | none, float32 x, .float64 => some (float64 x.toDouble)
    | none, _, _ => none

/-- The text shown to readers. -/
def display : Scalar → String
  | bool b => if b then "true" else "false"
  | int16 n => toString n.toInt
  | int32 n => toString n.toInt
  | int64 n => toString n.toInt
  | float32 x => x.plain
  | float64 x => x.plain
  | text s => s
  | bytes b => s!"[{b.length} bytes]"
  | uuid u => u.text
  | date d => d.text
  | time t => t.text
  | timestamp t => t.text
  | timestampTz t => t.zonedText
  | json j => j.text

/-- Whether two scalars are the same, floating point numbers compared as numbers. -/
def equals : Scalar → Scalar → Bool
  | bool a, bool b => a = b
  | int16 m, int16 n => m = n
  | int32 m, int32 n => m = n
  | int64 m, int64 n => m = n
  | float32 x, float32 y => x.equals y
  | float64 x, float64 y => x.equals y
  | text s, text t => s = t
  | bytes a, bytes b => a = b
  | uuid u, uuid v => u = v
  | date d, date e => d = e
  | time t, time u => t = u
  | timestamp t, timestamp u => t = u
  | timestampTz t, timestampTz u => t = u
  | json j, json k => j.equals k
  | _, _ => false

end Scalar
end TypedSql

import TypedSql.Protocol.Leaf

/-! Protocol values written as parameters: leaves in binary where a form carries them, else as text. -/
namespace TypedSql.Protocol

inductive Format where
  | text
  | binary
  deriving DecidableEq, Repr

/-- A parameter as sent; no bytes stand for null. -/
structure Payload where
  format : Format
  bytes : Option (List UInt8)
  deriving DecidableEq, Repr

/-- The format in which a value is sent to a parameter of a type. -/
def formatFor (type : ServerType) : Wire → Format
  | .scalar s => if type.form.carries s then .binary else .text
  | _ => .text

/-- A value as sent to a parameter of a type. -/
def encode (type : ServerType) (w : Wire) : Except CodecProblem Payload :=
  match formatFor type w, w with
  | .binary, .scalar s => do return ⟨.binary, some (← type.form.encode s)⟩
  | format, w => .ok ⟨format, w.literal?.map Text.Utf8.encode⟩

end TypedSql.Protocol

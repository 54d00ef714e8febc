import TypedSql.Catalog.Descriptor
import TypedSql.Value.Basic
import TypedSql.Error

/-! Protocol values turned back into values of callers, guided by the tree of their type. -/
namespace TypedSql

/-- The failure of a protocol value that is none of its type. -/
def undecodable {α : Type} (problem : DecodeProblem) : Except Error α := .error (.decode problem)

mutual

/-- An item of an array: a nested array is one more dimension, anything else an element. -/
def Wire.decodeItem (decode : Wire → Except Error Value) : Wire → Except Error Value
  | .array _ items => .array <$> Wire.decodeItems decode items
  | w => decode w

def Wire.decodeItems (decode : Wire → Except Error Value) : List Wire → Except Error (List Value)
  | [] => .ok []
  | w :: rest => do return (← w.decodeItem decode) :: (← Wire.decodeItems decode rest)

end

mutual

/-- The caller's value of a protocol value. Null is null for every type, also for a domain; the
fields of a record that must not be null are checked here. -/
def TypeDescriptor.decode : TypeDescriptor → Wire → Except Error Value
  | d@⟨_, name, _, _, kind, _⟩, w =>
    if w.isNull then .ok .null
    else match kind with
      | .unknown =>
        match w with
        | .scalar s => .ok (.scalar s)
        | w => undecodable (.untypedColumn w.label)
      | .base b =>
        match w with
        | .scalar s =>
          match s.coerce b.native with
          | some s' => .ok (.scalar s')
          | none => undecodable (.wrongKind s.native.label b.typeName)
        | w => undecodable (.wrongKind w.label d.sqlName)
      | .enum labels =>
        match w with
        | .scalar (.text label) =>
          if labels.contains label then .ok (.enum label) else undecodable (.notALabel label name)
        | w => undecodable (.wrongKind w.label d.sqlName)
      | .domain ⟨inner, _⟩ => .domain <$> inner.decode w
      | .composite fields =>
        match w with
        | .record values =>
          if values.length = fields.length then
            .record <$> TypeDescriptor.decodeFields name fields values
          else undecodable (.fieldCount name fields.length values.length)
        | w => undecodable (.wrongKind w.label d.sqlName)
      | .array ⟨element, _⟩ =>
        match w with
        | .array _ items => .array <$> Wire.decodeItems element.decode items
        | w => undecodable (.wrongKind w.label d.sqlName)
      | .range ⟨subtype, _⟩ =>
        match w with
        | .range r => .range <$> r.mapM subtype.decode
        | w => undecodable (.wrongKind w.label d.sqlName)

/-- The fields of a record, named by the type. -/
def TypeDescriptor.decodeFields (name : String) :
    List Field → List Wire → Except Error (List (String × Value))
  | ⟨field, ⟨d, nullable⟩⟩ :: rest, w :: values => do
    let v ← d.decode w
    if v.isNull && !nullable then undecodable (.nullField field name)
    else return (field, v) :: (← TypeDescriptor.decodeFields name rest values)
  | _, _ => .ok []

end

def TypeRef.decode (t : TypeRef) (w : Wire) : Except Error Value := t.descriptor.decode w

end TypedSql

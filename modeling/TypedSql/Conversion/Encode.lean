import TypedSql.Catalog.Descriptor
import TypedSql.Value.Basic
import TypedSql.Error

/-! Values of callers turned into protocol values, guided by the tree of their type. -/
namespace TypedSql

/-- The failure of a value that does not fit its type. -/
def mismatched {α : Type} (expected : Expectation) (found : Finding) : Except Error α :=
  .error (.mismatch expected found)

/-- The form of a value whose type is not known: only leaves have one. -/
def Value.encodeUntyped : Value → Except Error Wire
  | .null => .ok .null
  | .scalar s => .ok (.scalar s)
  | .enum label => .ok (.text label)
  | .domain inner => inner.encodeUntyped
  | .array _ => .error (.parameter .untypedArray)
  | v => .error (.parameter (.untyped v.label))

mutual

/-- An item of an array: a nested array is one more dimension, anything else an element. -/
def Value.encodeItem (element : String) (encode : Value → Except Error Wire) :
    Value → Except Error Wire
  | .array items => .array element <$> Value.encodeItems element encode items
  | v => encode v

def Value.encodeItems (element : String) (encode : Value → Except Error Wire) :
    List Value → Except Error (List Wire)
  | [] => .ok []
  | v :: rest => do return (← v.encodeItem element encode) :: (← Value.encodeItems element encode rest)

end

/-- The first name among the fields of a record that the type does not have. -/
def strayName? (fields : List Field) (given : List (String × Value)) : Option String :=
  (given.find? fun (name, _) => !fields.any fun f => f.name = name).map Prod.fst

mutual

/-- The protocol value of a caller's value. Null is null for every type; a domain takes its wrapper
off, or a bare value as it is; a record may leave out fields that may be null. -/
def TypeDescriptor.encode : TypeDescriptor → Value → Except Error Wire
  | d@⟨_, name, _, _, kind, _⟩, v =>
    if v.isNull then .ok .null
    else match kind with
      | .unknown => v.encodeUntyped
      | .base b =>
        match v with
        | .scalar s =>
          match s.coerce b.native with
          | some s' => .ok (.scalar s')
          | none => mismatched (.type b.typeName) (.kind s.native.label)
        | v => mismatched (.type b.typeName) (.kind v.label)
      | .enum labels =>
        match v with
        | .enum label | .scalar (.text label) =>
          if labels.contains label then .ok (.text label) else mismatched (.labelOf name) (.label label)
        | v => mismatched (.type name) (.kind v.label)
      | .domain ⟨inner, _⟩ =>
        match v with
        | .domain wrapped => inner.encode wrapped
        | bare => inner.encode bare
      | .composite fields =>
        match v with
        | .record given =>
          match strayName? fields given with
          | some stray => mismatched (.fieldOf name) (.unknownField stray)
          | none => .record <$> TypeDescriptor.encodeFields name given fields
        | v => mismatched (.type name) (.kind v.label)
      | .array ⟨element, _⟩ =>
        match v with
        | .array items => .array element.name <$> Value.encodeItems element.name element.encode items
        | v => mismatched (.type d.sqlName) (.kind v.label)
      | .range ⟨subtype, _⟩ =>
        match v with
        | .range r => .range <$> r.mapM subtype.encode
        | v => mismatched (.type name) (.kind v.label)

/-- The values of a record in the order of the type's fields, each looked up by name. -/
def TypeDescriptor.encodeFields (name : String) (given : List (String × Value)) :
    List Field → Except Error (List Wire)
  | [] => .ok []
  | ⟨field, ⟨d, nullable⟩⟩ :: rest => do
    let w ← match Value.lookup field given with
      | some v =>
        if !v.isNull then d.encode v
        else if nullable then .ok .null
        else mismatched (.notNullField field name) (.kind "null")
      | none => if nullable then .ok .null else mismatched (.notNullField field name) (.kind "null")
    return w :: (← TypeDescriptor.encodeFields name given rest)

end

def TypeRef.encode (t : TypeRef) (v : Value) : Except Error Wire := t.descriptor.encode v

end TypedSql

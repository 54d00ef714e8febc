import TypedSql.Catalog.BaseType

/-! Catalog types as trees: what a type is made of, and a use of it with its nullability. -/
namespace TypedSql

mutual

/-- A type of the catalog. Descriptors made by different steps of a session bear different stamps;
those made outside a session bear the stamp 0. -/
structure TypeDescriptor where
  oid : Oid
  name : String
  schema : String
  /-- The array type over this one, where the catalog has one. -/
  arrayOid : Option Oid
  kind : TypeKind
  stamp : Nat

/-- What a type is made of. -/
inductive TypeKind where
  /-- A slot without a meaningful type. -/
  | unknown
  | base (base : BaseType)
  | domain (base : TypeRef)
  | composite (fields : List Field)
  | enum (labels : List String)
  | array (element : TypeRef)
  | range (subtype : TypeRef)

/-- A use of a type. Nullability belongs to the use, never to the type. -/
structure TypeRef where
  descriptor : TypeDescriptor
  nullable : Bool

/-- A member of a composite type. -/
structure Field where
  name : String
  type : TypeRef

end

/-- The word for this kind of type. -/
def TypeKind.label : TypeKind → String
  | unknown => "unknown"
  | base _ => "base"
  | domain _ => "domain"
  | composite _ => "composite"
  | enum _ => "enum"
  | array _ => "array"
  | range _ => "range"

namespace TypeDescriptor

/-- The type of the identifier 0. -/
def unknown : TypeDescriptor := ⟨0, "unknown", systemSchema, none, .unknown, 0⟩

/-- A built-in base type, known without asking the catalog. -/
def builtin (b : BaseType) : TypeDescriptor :=
  ⟨b.oids.1, b.typeName, systemSchema, some b.oids.2, .base b, 0⟩

/-- The name written in SQL: an array is spelled by its element. -/
def sqlName : TypeDescriptor → String
  | ⟨_, _, _, _, .array ⟨element, _⟩, _⟩ => element.sqlName ++ "[]"
  | ⟨_, name, _, _, _, _⟩ => name

/-- Whether parameters of the type are written with an explicit cast. -/
def needsCast : TypeDescriptor → Bool
  | ⟨_, _, _, _, .unknown, _⟩ => false
  | ⟨_, _, _, _, .base b, _⟩ => b.needsCast
  | ⟨_, _, _, _, .domain ⟨inner, _⟩, _⟩ => inner.needsCast
  | ⟨_, _, _, _, .array ⟨element, _⟩, _⟩ => element.needsCast
  | ⟨_, _, _, _, .enum _, _⟩ | ⟨_, _, _, _, .composite _, _⟩ | ⟨_, _, _, _, .range _, _⟩ => true

end TypeDescriptor

namespace TypeRef

def oid (t : TypeRef) : Oid := t.descriptor.oid
def kind (t : TypeRef) : TypeKind := t.descriptor.kind
def name (t : TypeRef) : String := t.descriptor.name
def sqlName (t : TypeRef) : String := t.descriptor.sqlName
def needsCast (t : TypeRef) : Bool := t.descriptor.needsCast

def builtin (b : BaseType) (nullable : Bool) : TypeRef := ⟨.builtin b, nullable⟩

def unknown : TypeRef := ⟨.unknown, true⟩

def withNullable (t : TypeRef) (nullable : Bool) : TypeRef := ⟨t.descriptor, nullable⟩

/-- Whether two uses are of one type and equally nullable; types are told apart by identifier. -/
def agrees (t u : TypeRef) : Bool := t.nullable = u.nullable && t.oid = u.oid

/-- Whether two uses share one descriptor. -/
def sameInstance (t u : TypeRef) : Bool := t.descriptor.stamp = u.descriptor.stamp

def text (t : TypeRef) : String := if t.nullable then t.sqlName else t.sqlName ++ " not null"

/-- The array type over this one, where the catalog told of one. Its elements may be null. -/
def arrayOf? (t : TypeRef) : Option TypeRef :=
  t.descriptor.arrayOid.map fun oid =>
    ⟨⟨oid, "_" ++ t.name, t.descriptor.schema, none, .array (t.withNullable true), 0⟩, false⟩

end TypeRef

def indent (depth : Nat) : String := String.ofList (List.replicate (2 * depth) ' ')

/-- The line that stands for one use of a type. -/
def treeLine (d : TypeDescriptor) (nullable : Bool) (depth : Nat) : String :=
  indent depth ++ s!"{d.sqlName} ({d.kind.label} {d.oid})" ++
    (if nullable then "" else " not null") ++ "\n"

mutual

def descriptorTree (nullable : Bool) (depth : Nat) : TypeDescriptor → String
  | d@⟨_, _, _, _, .domain ⟨inner, n⟩, _⟩
  | d@⟨_, _, _, _, .array ⟨inner, n⟩, _⟩
  | d@⟨_, _, _, _, .range ⟨inner, n⟩, _⟩ =>
    treeLine d nullable depth ++ descriptorTree n (depth + 1) inner
  | d@⟨_, _, _, _, .composite fields, _⟩ => treeLine d nullable depth ++ fieldsTree depth fields
  | d@⟨_, _, _, _, .enum labels, _⟩ =>
    treeLine d nullable depth ++ indent depth ++ "  [" ++ ", ".intercalate labels ++ "]\n"
  | d@⟨_, _, _, _, .unknown, _⟩ | d@⟨_, _, _, _, .base _, _⟩ => treeLine d nullable depth

def fieldsTree (depth : Nat) : List Field → String
  | [] => ""
  | ⟨name, ⟨d, n⟩⟩ :: rest =>
    indent depth ++ "  ." ++ name ++ "\n" ++ descriptorTree n (depth + 2) d ++ fieldsTree depth rest

end

/-- The tree of a type, a line for each type in it. -/
def TypeRef.tree (t : TypeRef) : String := descriptorTree t.nullable 0 t.descriptor

end TypedSql

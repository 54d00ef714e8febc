import TypedSql.Catalog.BaseType

/-! A copy of the catalog rows that type resolution reads. -/
namespace TypedSql

/-- The class column of a type row. -/
inductive TypeClass where
  | base
  | composite
  | domain
  | enum
  | pseudo
  | range
  | multirange
  | other (code : String)
  deriving DecidableEq, Repr

def TypeClass.ofCode (code : String) : TypeClass :=
  match code with
  | "b" => .base
  | "c" => .composite
  | "d" => .domain
  | "e" => .enum
  | "p" => .pseudo
  | "r" => .range
  | "m" => .multirange
  | _ => .other code

/-- A row of the type table, reduced to what resolution needs. -/
structure TypeRow where
  oid : Oid
  name : String
  schema : String
  typeClass : TypeClass
  /-- The element type of a row that describes an array. -/
  element : Option Oid
  /-- The array type over this one. -/
  arrayOid : Option Oid
  /-- The type under a domain. -/
  baseType : Option Oid
  /-- Whether a domain refuses null. -/
  notNull : Bool
  deriving DecidableEq, Repr

namespace TypeRow

def ofClass (oid : Oid) (name schema : String) (typeClass : TypeClass) : TypeRow :=
  ⟨oid, name, schema, typeClass, none, none, none, false⟩

def withArray (row : TypeRow) (oid : Oid) : TypeRow := { row with arrayOid := some oid }

def arrayOf (row : TypeRow) (element : Oid) : TypeRow := { row with element := some element }

def domainOver (row : TypeRow) (baseType : Oid) (notNull : Bool) : TypeRow :=
  { row with baseType := some baseType, notNull := notNull }

end TypeRow

/-- A live attribute of a composite type or a table. -/
structure AttributeRow where
  name : String
  typeOid : Oid
  notNull : Bool
  deriving DecidableEq, Repr

/-- Rows by identifier; of several entries under one key the first counts. -/
abbrev OidMap (α : Type) := List (Oid × α)

namespace OidMap

variable {α : Type}

def get? (m : OidMap α) (oid : Oid) : Option α := (m.find? fun (k, _) => k = oid).map Prod.snd

def insert (oid : Oid) (a : α) : OidMap α → OidMap α
  | [] => [(oid, a)]
  | (k, b) :: rest => if k = oid then (k, a) :: rest else (k, b) :: insert oid a rest

theorem get?_insert (m : OidMap α) (oid key : Oid) (a : α) :
    (insert oid a m).get? key = if oid = key then some a else m.get? key := by
  induction m with
  | nil => by_cases h : oid = key <;> simp [insert, get?, h]
  | cons e rest ih =>
    obtain ⟨k, b⟩ := e
    simp only [get?] at ih
    by_cases hk : k = oid
    · subst hk; by_cases h : k = key <;> simp [insert, get?, h]
    · by_cases h : k = key
      · subst h; simp [insert, get?, hk, Ne.symm hk]
      · simp [insert, get?, hk, h, ih]

end OidMap

/-- The catalog rows of one schema and of the system schema. -/
structure Snapshot where
  types : List TypeRow
  attributes : OidMap (List AttributeRow)
  labels : OidMap (List String)
  subtypes : OidMap Oid

namespace Snapshot

def empty : Snapshot := ⟨[], [], [], []⟩

/-- The type row with an identifier. -/
def typeRow? (s : Snapshot) (oid : Oid) : Option TypeRow := s.types.find? fun row => row.oid = oid

/-- The attributes of a composite type, in order. -/
def attributesOf (s : Snapshot) (oid : Oid) : List AttributeRow := (s.attributes.get? oid).getD []

/-- The labels of an enum type, in order. -/
def labelsOf (s : Snapshot) (oid : Oid) : List String := (s.labels.get? oid).getD []

/-- The subtype of a range type. -/
def subtypeOf? (s : Snapshot) (oid : Oid) : Option Oid := s.subtypes.get? oid

/-- Puts a row in the place of the one with its identifier, or behind all others. -/
def putRow (row : TypeRow) : List TypeRow → List TypeRow
  | [] => [row]
  | r :: rest => if r.oid = row.oid then row :: rest else r :: putRow row rest

def insertType (s : Snapshot) (row : TypeRow) : Snapshot := { s with types := putRow row s.types }

def insertAttributes (s : Snapshot) (oid : Oid) (rows : List AttributeRow) : Snapshot :=
  { s with attributes := s.attributes.insert oid rows }

def pushAttribute (s : Snapshot) (oid : Oid) (row : AttributeRow) : Snapshot :=
  s.insertAttributes oid (s.attributesOf oid ++ [row])

def insertLabels (s : Snapshot) (oid : Oid) (labels : List String) : Snapshot :=
  { s with labels := s.labels.insert oid labels }

def pushLabel (s : Snapshot) (oid : Oid) (label : String) : Snapshot :=
  s.insertLabels oid (s.labelsOf oid ++ [label])

def insertSubtype (s : Snapshot) (oid subtype : Oid) : Snapshot :=
  { s with subtypes := s.subtypes.insert oid subtype }

def typeCount (s : Snapshot) : Nat := s.types.length

def findType? (s : Snapshot) (schema name : String) : Option TypeRow :=
  s.types.find? fun row => row.schema = schema && row.name = name

/-- Every built-in base type and the array type over it. -/
def builtins : Snapshot :=
  BaseType.all.foldl
    (fun s b =>
      let row := TypeRow.ofClass b.oids.1 b.typeName systemSchema .base
      let array := TypeRow.ofClass b.oids.2 ("_" ++ b.typeName) systemSchema .base
      (s.insertType (row.withArray b.oids.2)).insertType (array.arrayOf b.oids.1))
    empty

end Snapshot
end TypedSql

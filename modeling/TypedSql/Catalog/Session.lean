import TypedSql.Catalog.Descriptor
import TypedSql.Catalog.Snapshot
import TypedSql.Error

/-! Type resolution: descriptors built from catalog rows, each type once in a session. -/
namespace TypedSql

/-- A question put to the catalog. -/
inductive CatalogQuery where
  | typeRow (oid : Oid)
  | attributes (oid : Oid)
  | labels (oid : Oid)
  | subtype (oid : Oid)
  deriving DecidableEq, Repr

/-- What a session knows: the types resolved so far, those being resolved, the next free stamp, and
the questions it has put to the catalog. -/
structure TypeSession where
  cache : List TypeDescriptor
  inProgress : List Oid
  nextStamp : Nat
  queries : List CatalogQuery

/-- A step of a session. A step that fails keeps what it has learnt. -/
abbrev Resolving := ExceptT Error (StateM TypeSession)

namespace TypeSession

/-- A session that knows nothing; its stamps start at a number of its own. -/
def fresh (nextStamp : Nat) : TypeSession := ⟨[], [], nextStamp, []⟩

def new : TypeSession := fresh 1

/-- The descriptor of a type resolved before. -/
def cached? (s : TypeSession) (oid : Oid) : Option TypeDescriptor :=
  s.cache.find? fun d => d.oid = oid

def lookup? (s : TypeSession) (oid : Oid) (nullable : Bool) : Option TypeRef :=
  (s.cached? oid).map fun d => ⟨d, nullable⟩

def typeCount (s : TypeSession) : Nat := s.cache.length

end TypeSession

namespace Resolving

def ask (q : CatalogQuery) : Resolving Unit :=
  modify fun s => { s with queries := s.queries ++ [q] }

/-- Keeps a descriptor for the rest of the session, under a stamp of its own. -/
def remember (d : TypeDescriptor) : Resolving TypeDescriptor := do
  let s ← get
  let stamped := { d with stamp := s.nextStamp }
  set { s with cache := stamped :: s.cache, nextStamp := s.nextStamp + 1 }
  return stamped

/-- Runs a step with a type marked as being resolved; the mark goes whether or not the step fails. -/
def marking {α : Type} (oid : Oid) (step : Resolving α) : Resolving α := fun s =>
  let (outcome, s') := step.run { s with inProgress := oid :: s.inProgress }
  (outcome, { s' with inProgress := s'.inProgress.erase oid })

/-- The fields of a composite type, each resolved in turn. -/
def fields (resolve : Oid → Resolving TypeDescriptor) : List AttributeRow → Resolving (List Field)
  | [] => return []
  | row :: rest => do
    let d ← resolve row.typeOid
    let others ← fields resolve rest
    return ⟨row.name, ⟨d, !row.notNull⟩⟩ :: others

/-- What the type of a row is made of. A row with an element type is an array, whatever its class;
the elements of arrays may be null. -/
def kind (source : Snapshot) (resolve : Oid → Resolving TypeDescriptor) (row : TypeRow) :
    Resolving TypeKind :=
  match row.element, row.typeClass with
  | some element, _ => return .array ⟨← resolve element, true⟩
  | none, .base =>
    match BaseType.ofTypeName? row.name with
    | some b => return .base b
    | none => throw (.unresolved row.oid (.unsupportedBaseType row.name))
  | none, .composite => do
    ask (.attributes row.oid)
    return .composite (← fields resolve (source.attributesOf row.oid))
  | none, .domain =>
    match row.baseType with
    | some base => return .domain ⟨← resolve base, !row.notNull⟩
    | none => throw (.unresolved row.oid (.unknownKind "domain"))
  | none, .enum => do
    ask (.labels row.oid)
    return .enum (source.labelsOf row.oid)
  | none, .range => do
    ask (.subtype row.oid)
    match source.subtypeOf? row.oid with
    | some subtype => return .range ⟨← resolve subtype, false⟩
    | none => throw (.unresolved row.oid (.unknownKind "range"))
  | none, .pseudo => throw (.unresolved row.oid (.pseudoType row.name))
  | none, .multirange => throw (.unresolved row.oid (.unknownKind "multirange"))
  | none, .other code => throw (.unresolved row.oid (.unknownKind code))

/-- Resolves a type whose descriptor lies at most `depth` levels above the types it rests on. A type
met again while it is being resolved contains itself. -/
def descriptor (source : Snapshot) : Nat → Oid → Resolving TypeDescriptor
  | 0, oid => throw (.unresolved oid .tooDeep)
  | depth + 1, oid => do
    match (← get).cached? oid with
    | some d => return d
    | none =>
      if oid = 0 then remember .unknown
      else
        ask (.typeRow oid)
        match source.typeRow? oid with
        | none => throw (.unresolved oid .unknownType)
        | some row =>
          if (← get).inProgress.contains oid then throw (.unresolved oid (.cycle row.name))
          else
            let kind ← marking oid (kind source (descriptor source depth) row)
            remember ⟨row.oid, row.name, row.schema, row.arrayOid, kind, 0⟩

/-- The depth that suffices for a snapshot: on a way down no row repeats. -/
def depthFor (source : Snapshot) : Nat := source.typeCount + 1

/-- A use of the type with an identifier. The nullability belongs to this use and is not kept. -/
def type (source : Snapshot) (oid : Oid) (nullable : Bool) : Resolving TypeRef := do
  return ⟨← descriptor source (depthFor source) oid, nullable⟩

/-- The array type over a type, made anew and kept nowhere. -/
def arrayOf (t : TypeRef) : Resolving TypeRef := do
  match t.arrayOf? with
  | none => throw (.parameter (.noArrayType t.sqlName))
  | some a =>
    let s ← get
    set { s with nextStamp := s.nextStamp + 1 }
    return ⟨{ a.descriptor with stamp := s.nextStamp }, a.nullable⟩

end Resolving

namespace TypeSession

/-- Resolves a type; gives the outcome and the session behind it. -/
def resolve (s : TypeSession) (source : Snapshot) (oid : Oid) (nullable : Bool) :
    Except Error TypeRef × TypeSession :=
  (Resolving.type source oid nullable).run s

end TypeSession
end TypedSql

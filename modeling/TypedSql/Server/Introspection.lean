import TypedSql.Server.Fault
import TypedSql.Catalog.Session
import TypedSql.Sql.Table

/-! Catalog rows loaded from a server, and tables built from them. -/
namespace TypedSql.Server
open Sql

/-- The rows that answer a catalog query, or the fault it meets. -/
abbrev Rows (α : Type) := Except ServerFault (List α)

/-- A row of the type table as the server sends it. -/
structure LoadedType where
  oid : Oid
  name : String
  schema : String
  code : String
  category : String
  elementLinksBack : Bool
  element : Oid
  array : Oid
  baseType : Oid
  notNull : Bool

namespace LoadedType

/-- Array types are the array type of their own element; types that only look alike are not. -/
def isArray (t : LoadedType) : Bool := t.category = "A" && t.element ≠ 0 && t.elementLinksBack

/-- The row reduced to what resolution needs. -/
def toRow (t : LoadedType) : TypeRow :=
  let typeClass := TypeClass.ofCode t.code
  let row := TypeRow.ofClass t.oid t.name t.schema typeClass
  let row := if t.isArray then row.arrayOf t.element else row
  let row := if t.array ≠ 0 then row.withArray t.array else row
  if typeClass = .domain then row.domainOver t.baseType t.notNull else row

end LoadedType

def within {α : Type} (context : String) (rows : Rows α) : Except Failure (List α) :=
  rows.mapError (.during context)

/-- The snapshot that the four catalog queries fill, asked one after the other. -/
def loadSnapshot (types : Rows LoadedType) (attributes : Rows (Oid × AttributeRow))
    (labels : Rows (Oid × String)) (subtypes : Rows (Oid × Oid)) : Except Failure Snapshot := do
  let types ← within "loading pg_type" types
  let s := types.foldl (fun s t => s.insertType t.toRow) Snapshot.empty
  let attributes ← within "loading composite attributes" attributes
  let s := attributes.foldl (fun s (oid, row) => s.pushAttribute oid row) s
  let labels ← within "loading enum labels" labels
  let s := labels.foldl (fun s (oid, label) => s.pushLabel oid label) s
  let subtypes ← within "loading range subtypes" subtypes
  return subtypes.foldl (fun s (oid, subtype) => s.insertSubtype oid subtype) s

/-- The values bound by the queries that fill a snapshot of a schema. -/
def snapshotBinds (schema : String) : List (List String) := [[schema], [schema], [schema], []]

/-- A table whose columns have resolved types. -/
def buildTable (source : Snapshot) (name : String) (columns : List AttributeRow) :
    Resolving Table := do
  let members ← columns.mapM fun row => do
    return (row.name, ← Resolving.type source row.typeOid !row.notNull)
  return .ofColumns name members

/-- The values bound by the query for the columns of a table. -/
def tableBinds (schema name : String) : List String := [schema, name]

/-- Loads the columns of a table and resolves their types. -/
def loadTable (source : Snapshot) (schema name : String) (columns : Rows AttributeRow)
    (session : TypeSession) : Except Failure Table × TypeSession :=
  match within s!"loading columns of {schema}.{name}" columns with
  | .error f => (.error f, session)
  | .ok [] =>
    (.error ⟨[], .messages [s!"relation {schema}.{name} does not exist or has no columns"]⟩, session)
  | .ok rows =>
    let (outcome, session) := (buildTable source name rows).run session
    (outcome.mapError .ofError, session)

inductive RelationKind where
  | table
  | view
  | materializedView
  | foreignTable
  | partitioned
  deriving DecidableEq, Repr

namespace RelationKind

def ofCode? (code : String) : Option RelationKind :=
  match code with
  | "r" => some table
  | "v" => some view
  | "m" => some materializedView
  | "f" => some foreignTable
  | "p" => some partitioned
  | _ => none

def label : RelationKind → String
  | table => "TABLE"
  | view => "VIEW"
  | materializedView => "MVIEW"
  | foreignTable => "FOREIGN"
  | partitioned => "PARTITIONED"

end RelationKind

structure Relation where
  name : String
  kind : RelationKind
  /-- The server's estimate of the count of rows. -/
  estimate : Int
  deriving DecidableEq, Repr

/-- The relations among rows of name, kind code and estimate; rows of other kinds are left out. -/
def listRelations (schema : String) (rows : Rows (String × String × Int)) :
    Except Failure (List Relation) := do
  let rows ← within ("listing relations in " ++ schema) rows
  return rows.filterMap fun (name, code, estimate) =>
    (RelationKind.ofCode? code).map fun kind => ⟨name, kind, estimate⟩

end TypedSql.Server

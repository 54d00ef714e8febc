import TypedSql.Server.Fault
import TypedSql.Sql.Placeholder
import TypedSql.Protocol.ServerType
import TypedSql.Catalog.Session

/-! The parameters and columns of a query text, as the server tells them without running it. -/
namespace TypedSql.Server
open Sql Protocol

/-- A column as the server reports it, with the table column it comes straight from. -/
structure ReportedColumn where
  name : String
  type : ServerType
  table : Oid
  attributeNumber : Int

/-- What the server reports for a text. -/
structure Report where
  /-- The fault with which it refuses the text. -/
  refusal : Option ServerFault
  params : List ServerType
  columns : List ReportedColumn
  /-- The attributes of tables and whether they refuse null. -/
  notNull : List (Oid × Int × Bool)

structure ColumnMeta where
  name : String
  typeOid : Oid
  nullable : Bool
  deriving DecidableEq, Repr

structure QueryMetadata where
  params : List Oid
  columns : List ColumnMeta
  deriving DecidableEq, Repr

/-- Whether a column may be null: computed columns may, others if their attribute does. -/
def Report.isNullable (r : Report) (c : ReportedColumn) : Bool :=
  if c.table = 0 || c.attributeNumber = 0 then true
  else match r.notNull.find? fun (t, a, _) => t = c.table && a = c.attributeNumber with
    | some (_, _, notNull) => !notNull
    | none => true

/-- Numbers and prepares a text; gives the text sent and what it tells. -/
def describe (sql : String) (report : Report) : Except Failure (String × QueryMetadata) :=
  match numberPlaceholders sql with
  | .error e => .error (.ofError e)
  | .ok numbered =>
    let fail (f : LinkFailure) : Failure := ⟨[], .server (f.toError numbered)⟩
    if numbered.toList.contains '\x00' then .error (fail .unsendable)
    else match report.refusal with
      | some f => .error (fail (.fault f))
      | none => .ok (numbered,
          ⟨report.params.map ServerType.oid,
            report.columns.map fun c => ⟨c.name, c.type.oid, report.isNullable c⟩⟩)

/-- A description with its types resolved. -/
structure ResolvedQuery where
  params : List TypeRef
  columns : List (String × TypeRef)

/-- Resolves the parameters, any of which may be null, and then the columns. -/
def QueryMetadata.resolve (q : QueryMetadata) (source : Snapshot) : Resolving ResolvedQuery := do
  let params ← q.params.mapM fun oid => Resolving.type source oid true
  let columns ← q.columns.mapM fun c => do
    return (c.name, ← Resolving.type source c.typeOid c.nullable)
  return ⟨params, columns⟩

end TypedSql.Server

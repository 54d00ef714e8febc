import TypedSql.Sql.Modification
import TypedSql.Sql.Query
import TypedSql.Sql.Placeholder

/-! Whole statements: checked, written in one pass over their clauses, and numbered for the server. -/
namespace TypedSql.Sql
open Rendering

inductive StatementKind where
  | select
  | insert
  | update
  | delete
  deriving DecidableEq, Repr

def StatementKind.text : StatementKind → String
  | select => "SELECT"
  | insert => "INSERT"
  | update => "UPDATE"
  | delete => "DELETE"

inductive Statement where
  | select (s : Select)
  | insert (i : Insert)
  | update (u : Update)
  | delete (d : Delete)

def Statement.kind : Statement → StatementKind
  | select _ => .select
  | insert _ => .insert
  | update _ => .update
  | delete _ => .delete

/-- A statement as written: its text with the parameters in it, and its outputs. -/
structure Rendered where
  kind : StatementKind
  body : Fragment
  outputs : List Output

namespace Rendered

def sql (r : Rendered) : String := r.body.sql
def params (r : Rendered) : List Parameter := r.body.params

/-- The text with numbered placeholders, as the server expects it. -/
def numberedSql (r : Rendered) : Except Error String := numberPlaceholders r.sql

/-- The output with a name. -/
def output? (r : Rendered) (name : String) : Option Output := r.outputs.find? fun o => o.name = name

def sameOutputs : List Output → List Output → Bool
  | [], [] => true
  | o :: os, p :: ps => o.equals p && sameOutputs os ps
  | _, _ => false

/-- Whether two renderings are the same. -/
def equals (r s : Rendered) : Bool :=
  r.kind = s.kind && r.body.same s.body && sameOutputs r.outputs s.outputs

end Rendered

/-- Refuses columns that are not the table's. -/
def checkOwned (t : Table) (clause : Clause) : List Column → Except Error Unit
  | [] => .ok ()
  | c :: rest =>
    if t.owns c then checkOwned t clause rest
    else .error (.statement (.foreignColumn clause c.owner c.name t.sqlName))

/-- Refuses a column that occurs twice; `seen` are the columns before. -/
def checkDistinct (clause : Clause) (seen : List Column) : List Column → Except Error Unit
  | [] => .ok ()
  | c :: rest =>
    if seen.any c.same then .error (.statement (.repeatedColumn clause c.name))
    else checkDistinct clause (c :: seen) rest

/-- Refuses assignments to columns of other tables, or to one column twice. -/
def checkRows (t : Table) : List (List Assignment) → Except Error Unit
  | [] => .ok ()
  | row :: rest => do
    checkOwned t .insert (row.map Assignment.column)
    checkDistinct .insertRow [] (row.map Assignment.column)
    checkRows t rest

def renderAssignment (a : Assignment) : Rendering Unit := do
  writeName a.column.name
  write " = "
  a.expr.render

/-- Assignments with the bare names of their columns. -/
def renderAssignments (assignments : List Assignment) : Rendering Unit :=
  separated ", " renderAssignment assignments

def renderReturning (targets : List Target) : Rendering Unit :=
  if targets.isEmpty then return
  else do
    write " RETURNING "
    Target.renderNamed true targets

def renderNames (columns : List Column) : Rendering Unit :=
  separated ", " (fun c => writeName c.name) columns

/-- A clause for rows that are there already. The proposed row is in sight of the update only. -/
def OnConflict.render (c : OnConflict) (t : Table) : Rendering Unit := do
  checkOwned t .onConflict c.target
  write " ON CONFLICT"
  if !c.target.isEmpty then
    write " ("
    renderNames c.target
    write ")"
  match c.action with
  | .nothing => write " DO NOTHING"
  | .update assignments filters =>
    if c.target.isEmpty then throw (.statement .conflictWithoutTarget)
    if assignments.isEmpty then throw (.statement .conflictWithoutAssignment)
    checkOwned t .doUpdate (assignments.map Assignment.column)
    checkDistinct .doUpdate [] (assignments.map Assignment.column)
    enter t.excluded
    write " DO UPDATE SET "
    renderAssignments assignments
    renderFilters filters
    leave t.excluded

/-- The values of a row, a default for each column it does not set. -/
def renderRow (columns : List Column) (row : List Assignment) : Rendering Unit := do
  write "("
  separated ", " (fun c => ((Assignment.find? row c).getD .default).render) columns
  write ")"

def Insert.render (i : Insert) : Rendering Unit := do
  if i.rows.isEmpty then throw (.statement .noRows)
  checkRows i.table i.rows
  if i.columns.isEmpty then throw (.statement .noColumns)
  enter i.table
  write "INSERT INTO "
  i.table.render
  write "("
  renderNames i.columns
  write ") VALUES "
  separated ", " (renderRow i.columns) i.rows
  if let some c := i.conflict then c.render i.table
  renderReturning i.returning
  leave i.table

def Update.render (u : Update) : Rendering Unit := do
  if u.filters.isEmpty then throw (.statement .unfilteredUpdate)
  if u.assignments.isEmpty then throw (.statement .noAssignments)
  checkOwned u.table .update (u.assignments.map Assignment.column)
  checkDistinct .update [] (u.assignments.map Assignment.column)
  enter u.table
  u.sources.forM enter
  write "UPDATE "
  u.table.render
  write " SET "
  renderAssignments u.assignments
  if !u.sources.isEmpty then
    write " FROM "
    separated ", " Table.render u.sources
  renderFilters u.filters
  renderReturning u.returning
  u.sources.reverse.forM leave
  leave u.table

def Delete.render (d : Delete) : Rendering Unit := do
  if d.filters.isEmpty then throw (.statement .unfilteredDelete)
  enter d.table
  d.sources.forM enter
  write "DELETE FROM "
  d.table.render
  if !d.sources.isEmpty then
    write " USING "
    separated ", " Table.render d.sources
  renderFilters d.filters
  renderReturning d.returning
  d.sources.reverse.forM leave
  leave d.table

namespace Statement

def write : Statement → Rendering Unit
  | select s => s.render .outermost
  | insert i => i.render
  | update u => u.render
  | delete d => d.render

/-- Writes a statement on a blank canvas. -/
def render (s : Statement) : Except Error Rendered :=
  match s.write.run .blank with
  | (.ok (), c) => .ok ⟨s.kind, c.written, c.scope.outputs.map Prod.snd⟩
  | (.error e, _) => .error e

end Statement
end TypedSql.Sql

import TypedSql.Sql.Expr

/-! Statements that change rows, built clause by clause. -/
namespace TypedSql.Sql

/-- A column and the term it is set to. -/
structure Assignment where
  column : Column
  expr : Expr

namespace Assignment

def value (c : Column) (v : Value) : Assignment := ⟨c, .value c v⟩

/-- Takes over the value of the proposed row. -/
def excluded (c : Column) : Assignment := ⟨c, .column c.excluded⟩

/-- The term the first assignment to a column sets. -/
def find? (assignments : List Assignment) (c : Column) : Option Expr :=
  (assignments.find? fun a => a.column.same c).map Assignment.expr

end Assignment

/-- What happens to a row that is there already. -/
inductive ConflictAction where
  | nothing
  | update (assignments : List Assignment) (filters : List Expr)

structure OnConflict where
  /-- The columns of the unique index that decides whether a row is there. -/
  target : List Column
  action : ConflictAction

namespace OnConflict

def onColumns (target : List Column) : OnConflict := ⟨target, .nothing⟩

/-- Adds an assignment; the first one makes the clause an update. -/
def assign (c : OnConflict) (a : Assignment) : OnConflict :=
  match c.action with
  | .nothing => { c with action := .update [a] [] }
  | .update assignments filters => { c with action := .update (assignments ++ [a]) filters }

/-- Adds a condition; the first one makes the clause an update. -/
def filter (c : OnConflict) (e : Expr) : OnConflict :=
  match c.action with
  | .nothing => { c with action := .update [] [e] }
  | .update assignments filters => { c with action := .update assignments (filters ++ [e]) }

end OnConflict

structure Insert where
  table : Table
  /-- A row sets some columns; the others take their default. -/
  rows : List (List Assignment)
  conflict : Option OnConflict
  returning : List Target

namespace Insert

def ofTable (t : Table) : Insert := ⟨t, [], none, []⟩

def addRows (i : Insert) (rows : List (List Assignment)) : Insert := { i with rows := i.rows ++ rows }

def onConflict (i : Insert) (c : OnConflict) : Insert := { i with conflict := some c }

def addReturning (i : Insert) (t : Target) : Insert := { i with returning := i.returning ++ [t] }

/-- The columns that some row sets, in the order of the table. -/
def columns (i : Insert) : List Column :=
  i.table.columns.filter fun c => i.rows.any fun row => (Assignment.find? row c).isSome

end Insert

structure Update where
  table : Table
  sources : List Table
  assignments : List Assignment
  filters : List Expr
  returning : List Target

namespace Update

def ofTable (t : Table) : Update := ⟨t, [], [], [], []⟩

def assign (u : Update) (a : Assignment) : Update := { u with assignments := u.assignments ++ [a] }

def addSource (u : Update) (t : Table) : Update := { u with sources := u.sources ++ [t] }

def filter (u : Update) (e : Expr) : Update := { u with filters := u.filters ++ [e] }

def addReturning (u : Update) (t : Target) : Update := { u with returning := u.returning ++ [t] }

end Update

structure Delete where
  table : Table
  sources : List Table
  filters : List Expr
  returning : List Target

namespace Delete

def ofTable (t : Table) : Delete := ⟨t, [], [], []⟩

def addSource (d : Delete) (t : Table) : Delete := { d with sources := d.sources ++ [t] }

def filter (d : Delete) (e : Expr) : Delete := { d with filters := d.filters ++ [e] }

def addReturning (d : Delete) (t : Target) : Delete := { d with returning := d.returning ++ [t] }

end Delete
end TypedSql.Sql

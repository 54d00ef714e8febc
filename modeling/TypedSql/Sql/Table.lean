import TypedSql.Catalog.Descriptor
import TypedSql.Error

/-! Tables with typed columns, and the names under which statements refer to them. -/
namespace TypedSql.Sql

/-- A column of a table, the table given by the name it has in a statement. -/
structure Column where
  owner : String
  name : String
  type : TypeRef

namespace Column

/-- Columns are told apart by their own name and the name of their table. -/
def same (c d : Column) : Bool := c.owner = d.owner && c.name = d.name

/-- The name under which the proposed row is known in a conflict clause. -/
def excludedName : String := "excluded"

/-- The same column of the proposed row. -/
def excluded (c : Column) : Column := { c with owner := excludedName }

end Column

structure Table where
  name : String
  /-- The name the table goes by in a statement, if not its own. -/
  otherName : Option String
  members : List (String × TypeRef)

namespace Table

def ofColumns (name : String) (members : List (String × TypeRef)) : Table := ⟨name, none, members⟩

/-- The table under another name; its columns change their owner with it. -/
def aliased (t : Table) (otherName : String) : Table := { t with otherName := some otherName }

/-- The table as the proposed row of a conflict clause. -/
def excluded (t : Table) : Table := t.aliased Column.excludedName

/-- The name the table goes by in a statement. -/
def sqlName (t : Table) : String := t.otherName.getD t.name

def columns (t : Table) : List Column := t.members.map fun (name, type) => ⟨t.sqlName, name, type⟩

/-- Tables are told apart by the name they go by. -/
def same (t u : Table) : Bool := t.sqlName = u.sqlName

/-- The first column with a name. -/
def column (t : Table) (name : String) : Except Error Column :=
  match t.columns.find? fun c => c.name = name with
  | some c => .ok c
  | none => .error (.statement (.missingColumn t.sqlName name))

def owns (t : Table) (c : Column) : Bool := t.columns.any c.same

end Table
end TypedSql.Sql

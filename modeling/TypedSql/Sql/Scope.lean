import TypedSql.Sql.Table
import TypedSql.Sql.Fragment

/-! The columns in sight of a clause, and the outputs a statement has claimed. -/
namespace TypedSql.Sql

/-- A column of the result: its name in the statement, the type it is read by, and the fields it
fills. -/
structure Output where
  name : String
  type : TypeRef
  fields : List String

namespace Output

def equals (o p : Output) : Bool :=
  o.name = p.name && o.type.agrees p.type && o.fields = p.fields

end Output

structure Scope where
  /-- Columns of the open tables, the last entered first; a table entered twice counts twice. -/
  visible : List Column
  /-- The outputs claimed so far, each with the text that yields it. -/
  outputs : List (Fragment × Output)

namespace Scope

def empty : Scope := ⟨[], []⟩

/-- Brings the columns of a table into sight. -/
def enter (s : Scope) (t : Table) : Scope :=
  { s with visible := t.columns.foldl (fun cs c => c :: cs) s.visible }

/-- Takes each column of a table out of sight once. -/
def leave (s : Scope) (t : Table) : Scope :=
  { s with visible := t.columns.foldl (fun cs c => cs.eraseP c.same) s.visible }

def isVisible (s : Scope) (c : Column) : Bool := s.visible.any c.same

/-- A column is written with its table unless it is in sight and no other column of its name is. -/
def needsQualification (s : Scope) (c : Column) : Bool :=
  !s.isVisible c || s.visible.any fun d => d.name = c.name && !c.same d

/-- Adds a field to the output that has this text, if there is one. -/
def shareOutput (f : Fragment) (field : String) :
    List (Fragment × Output) → Option (List (Fragment × Output))
  | [] => none
  | (g, o) :: rest =>
    if g.same f then some ((g, { o with fields := o.fields ++ [field] }) :: rest)
    else (shareOutput f field rest).map ((g, o) :: ·)

def outputName (index : Nat) : String := "_" ++ toString index

/-- Claims an output for a field. A text that has one gives it to the field as well; otherwise a new
output is claimed and its name given. -/
def claim (s : Scope) (f : Fragment) (field : String) (type : TypeRef) : Option String × Scope :=
  match shareOutput f field s.outputs with
  | some outputs => (none, { s with outputs := outputs })
  | none =>
    let name := outputName s.outputs.length
    (some name, { s with outputs := s.outputs ++ [(f, ⟨name, type, [field]⟩)] })

end Scope
end TypedSql.Sql

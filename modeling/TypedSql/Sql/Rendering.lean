import TypedSql.Sql.Scope

/-! Steps that write a statement. A step that fails keeps what it wrote and entered before. -/
namespace TypedSql.Sql

/-- The scope and the text written so far. -/
structure Canvas where
  scope : Scope
  written : Fragment

namespace Canvas

def blank : Canvas := ⟨.empty, []⟩

end Canvas

abbrev Rendering := ExceptT Error (StateM Canvas)

namespace Rendering

def put (f : Fragment) : Rendering Unit := modify fun c => { c with written := c.written ++ f }

def write (s : String) : Rendering Unit := put [.text s]

def writeName (name : String) : Rendering Unit := put [.name name]

def writeFunction (name : String) : Rendering Unit := put [.function name]

/-- Converts a value and writes its placeholder, in one step. -/
def bind (type : TypeRef) (v : Value) : Rendering Unit := do
  let w ← type.encode v
  put [.parameter ⟨w, type⟩]

def enter (t : Table) : Rendering Unit := modify fun c => { c with scope := c.scope.enter t }

def leave (t : Table) : Rendering Unit := modify fun c => { c with scope := c.scope.leave t }

/-- Claims an output; gives the name of a new one. -/
def claim (f : Fragment) (field : String) (type : TypeRef) : Rendering (Option String) :=
  modifyGet fun c =>
    let (name, scope) := c.scope.claim f field type
    (name, { c with scope := scope })

/-- What a step writes, kept apart from the text written so far. -/
def capture (step : Rendering Unit) : Rendering Fragment := fun c =>
  let (outcome, c') := step.run { c with written := [] }
  (outcome.map fun _ => c'.written, { c' with written := c.written })

/-- Does a step for each item, with a text between them. -/
def separated {α : Type} (separator : String) (step : α → Rendering Unit) : List α → Rendering Unit
  | [] => return
  | [a] => step a
  | a :: rest => do
    step a
    write separator
    separated separator step rest

/-- Does a step, in parentheses if asked for. -/
def parenthesized (wrap : Bool) (step : Rendering Unit) : Rendering Unit :=
  if wrap then do
    write "("
    step
    write ")"
  else step

end Rendering

/-- A table by name, with the other name it goes by. -/
def Table.render (t : Table) : Rendering Unit := do
  Rendering.writeName t.name
  match t.otherName with
  | some otherName =>
    Rendering.write " AS "
    Rendering.writeName otherName
  | none => return

/-- A column by name, behind its table where the name alone would not tell. -/
def Column.render (c : Column) : Rendering Unit := do
  if (← get).scope.needsQualification c then
    Rendering.writeName c.owner
    Rendering.write "."
  Rendering.writeName c.name

end TypedSql.Sql

import TypedSql.Sql.Scope
import TypedSql.Conversion.Decode

/-! Result rows read against the outputs of a statement. -/
namespace TypedSql.Server
open Sql

/-- A decoded row, its fields in the order of the outputs they come from. -/
structure Record where
  fields : List (String × Value)

namespace Record

/-- The value of a field; of several with one name the first. -/
def get? (r : Record) (field : String) : Option Value := Value.lookup field r.fields

def toValue (r : Record) : Value := .record r.fields

end Record

/-- The fields that one output fills, all with the value of its column. -/
def decodeColumn (o : Output) (w : Wire) : Except Error (List (String × Value)) :=
  if w.isNull && !o.type.nullable then .error (.decode (.nullOutput o.name))
  else do
    let v ← o.type.decode w
    return o.fields.map (·, v)

def decodeColumns : List Output → List Wire → Except Error (List (String × Value))
  | o :: outputs, w :: ws => do return (← decodeColumn o w) ++ (← decodeColumns outputs ws)
  | _, _ => .ok []

/-- The record in a row that has one value for each output. -/
def decodeRow (outputs : List Output) (row : List Wire) : Except Error Record :=
  if row.length = outputs.length then Record.mk <$> decodeColumns outputs row
  else .error (.decode (.rowWidth row.length outputs.length))

end TypedSql.Server

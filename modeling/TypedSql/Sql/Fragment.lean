import TypedSql.Sql.Identifier
import TypedSql.Conversion.Encode

/-! Statement text in pieces, each placeholder together with the parameter it stands for. -/
namespace TypedSql.Sql

/-- A value in its protocol form and the type it was converted by. -/
structure Parameter where
  value : Wire
  type : TypeRef

namespace Parameter

def equals (p q : Parameter) : Bool := p.value.equals q.value && p.type.agrees q.type

/-- The placeholder, within a cast where the server cannot infer the type. -/
def mark (p : Parameter) : String :=
  if p.type.needsCast then "CAST(? AS " ++ castType p.type.descriptor ++ ")" else "?"

end Parameter

/-- A piece of a statement. -/
inductive Piece where
  /-- Keywords, operators and punctuation. -/
  | text (s : String)
  | name (s : String)
  /-- The name of a function, which stands as given. -/
  | function (s : String)
  | parameter (p : Parameter)

namespace Piece

def sql : Piece → String
  | text s => s
  | name s => identifier s
  | function s => s
  | parameter p => p.mark

def parameter? : Piece → Option Parameter
  | parameter p => some p
  | _ => none

end Piece

/-- Pieces in the order of the text. -/
abbrev Fragment := List Piece

namespace Fragment

def sql (f : Fragment) : String := String.join (f.map Piece.sql)

/-- The parameters in the order of their placeholders. -/
def params (f : Fragment) : List Parameter := f.filterMap Piece.parameter?

/-- Whether two lists of parameters are the same. -/
def sameParams : List Parameter → List Parameter → Bool
  | [], [] => true
  | p :: ps, q :: qs => p.equals q && sameParams ps qs
  | _, _ => false

/-- Fragments are the same when text and parameters are, however they fall into pieces. -/
def same (f g : Fragment) : Bool := f.sql = g.sql && sameParams f.params g.params

end Fragment
end TypedSql.Sql

/-! Binary operators with their spelling and precedence. -/
namespace TypedSql.Sql

inductive Operator where
  | eq
  | ne
  | lt
  | le
  | gt
  | ge
  | and
  | or
  | plus
  | minus
  | times
  | divide
  | like
  | ilike
  | concat
  deriving DecidableEq, Repr

namespace Operator

def text : Operator → String
  | eq => "="
  | ne => "<>"
  | lt => "<"
  | le => "<="
  | gt => ">"
  | ge => ">="
  | and => "AND"
  | or => "OR"
  | plus => "+"
  | minus => "-"
  | times => "*"
  | divide => "/"
  | like => "LIKE"
  | ilike => "ILIKE"
  | concat => "||"

/-- Operators of a higher precedence bind tighter. -/
def precedence : Operator → Nat
  | or => 1
  | and => 2
  | eq | ne | lt | le | gt | ge => 4
  | like | ilike => 5
  | concat => 6
  | plus | minus => 7
  | times | divide => 8

/-- Operators whose chains mean the same however they are grouped. -/
def isAssociative : Operator → Bool
  | and | or | plus | times | concat => true
  | _ => false

/-- Whether an operand under `op` may stand without parentheses although it binds no tighter. -/
def chains (op child : Operator) : Bool := child = op && op.isAssociative

end Operator

/-- The precedence of a negation, between those of conjunctions and comparisons. -/
def negationPrecedence : Nat := 3

/-- The precedence of comparisons, tests for null and tests for membership. -/
def comparisonPrecedence : Nat := 4

end TypedSql.Sql

import TypedSql.Sql.Operator
import TypedSql.Sql.Table
import TypedSql.Value.Basic

/-! Terms of a statement and the selects that nest in them. -/
namespace TypedSql.Sql

inductive Order where
  | ascending
  | descending
  deriving DecidableEq, Repr

/-- The row lock a select asks for. -/
inductive Lock where
  | forUpdate
  | skipLocked
  deriving DecidableEq, Repr

mutual

inductive Expr where
  | column (c : Column)
  /-- A value bound to the statement, converted by a type. -/
  | param (value : Value) (type : TypeRef)
  | default
  | bool (b : Bool)
  | call (function : String) (args : List Expr)
  | binary (op : Operator) (left right : Expr)
  | not (e : Expr)
  | nullTest (e : Expr) (negated : Bool)
  /-- Membership in a list that is bound as one array. -/
  | within (e : Expr) (values : List Value) (element : TypeRef)
  | subquery (s : Select)
  | existence (s : Select)

/-- An entry of a result list: the field it fills, the term, and the type results are read by. -/
structure Target where
  field : String
  expr : Expr
  type : TypeRef

structure SortTerm where
  expr : Expr
  order : Order

structure Select where
  table : Table
  joins : List Table
  targets : List Target
  filters : List Expr
  sorting : List SortTerm
  lock : Option Lock
  limit : Option Int64

end

namespace Expr

/-- A value bound in the type of a column. -/
def value (c : Column) (v : Value) : Expr := param v c.type

def equals (c : Column) (v : Value) : Expr := binary .eq (column c) (value c v)

def inList (c : Column) (values : List Value) : Expr := within (column c) values c.type

def alwaysTrue : Expr := bool true

/-- How tightly a term binds; terms that are closed in themselves have no precedence. -/
def precedence? : Expr → Option Nat
  | binary op _ _ => some op.precedence
  | not _ => some negationPrecedence
  | nullTest _ _ | within _ _ _ => some comparisonPrecedence
  | _ => none

/-- Whether a term needs parentheses as an operand under a precedence: if it binds looser, or no
tighter without being an operator that chains. -/
def needsParentheses (e : Expr) (parent : Nat) (chains : Operator → Bool) : Bool :=
  match e.precedence?, e with
  | some p, binary op _ _ => p < parent || (p = parent && !chains op)
  | some p, _ => p ≤ parent
  | none, _ => false

end Expr

/-- The entry that fills a field with the column of its name. -/
def Target.ofColumn (c : Column) : Target := ⟨c.name, .column c, c.type⟩

namespace Select

def ofTable (t : Table) : Select := ⟨t, [], [], [], [], none, none⟩

def join (s : Select) (t : Table) : Select := { s with joins := s.joins ++ [t] }

def addTargets (s : Select) (targets : List Target) : Select :=
  { s with targets := s.targets ++ targets }

def columns (s : Select) (cs : List Column) : Select := s.addTargets (cs.map Target.ofColumn)

/-- Every column of the first table. -/
def allColumns (s : Select) : Select := s.columns s.table.columns

def filter (s : Select) (e : Expr) : Select := { s with filters := s.filters ++ [e] }

def orderBy (s : Select) (e : Expr) (order : Order) : Select :=
  { s with sorting := s.sorting ++ [⟨e, order⟩] }

/-- Asks for a lock, unless one was asked for. -/
def forUpdate (s : Select) : Select := { s with lock := some (s.lock.getD .forUpdate) }

/-- Asks for a lock that passes over rows locked by others. -/
def skipLocked (s : Select) : Select := { s with lock := some .skipLocked }

def limitTo (s : Select) (n : Int64) : Select := { s with limit := some n }

end Select
end TypedSql.Sql

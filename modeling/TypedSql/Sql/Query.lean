import TypedSql.Sql.Expr
import TypedSql.Sql.Rendering

/-! The text of terms and selects, with no more parentheses than their meaning needs. -/
namespace TypedSql.Sql
open Rendering

/-- Only the outermost list names its entries. -/
inductive Level where
  | outermost
  | nested
  deriving DecidableEq, Repr

def Lock.text : Lock → String
  | forUpdate => " FOR UPDATE"
  | skipLocked => " FOR UPDATE SKIP LOCKED"

/-- The type in which limits are bound. -/
def limitType : TypeRef := .builtin .int8 false

mutual

def Expr.render : Expr → Rendering Unit
  | .column c => c.render
  | .param v type => Rendering.bind type v
  | .default => write "DEFAULT"
  | .bool b => write (if b then "TRUE" else "FALSE")
  | .call function args => do
    writeFunction function
    write "("
    Expr.renderAll args
    write ")"
  | .binary op left right => do
    parenthesized (left.needsParentheses op.precedence op.chains) left.render
    write " "
    write op.text
    write " "
    parenthesized (right.needsParentheses op.precedence op.chains) right.render
  | .not e => do
    write "NOT "
    parenthesized (e.needsParentheses negationPrecedence fun _ => false) e.render
  | .nullTest e negated => do
    parenthesized (e.needsParentheses comparisonPrecedence fun _ => false) e.render
    write (if negated then " IS NOT NULL" else " IS NULL")
  | .within e values element => do
    match element.arrayOf? with
    | none => throw (.parameter (.noArrayType element.sqlName))
    | some array =>
      parenthesized (e.needsParentheses comparisonPrecedence fun _ => false) e.render
      write " = ANY("
      Rendering.bind array (.array values)
      write ")"
  | .subquery s => do
    write "("
    s.render .nested
    write ")"
  | .existence s => do
    write "EXISTS ("
    s.render .nested
    write ")"

/-- Terms with commas between them. -/
def Expr.renderAll : List Expr → Rendering Unit
  | [] => return
  | [e] => e.render
  | e :: rest => do
    e.render
    write ", "
    Expr.renderAll rest

/-- Conditions that all have to hold. -/
def Expr.renderConjunction : List Expr → Rendering Unit
  | [] => return
  | [e] =>
    parenthesized (e.needsParentheses Operator.and.precedence (Operator.and.chains ·)) e.render
  | e :: rest => do
    parenthesized (e.needsParentheses Operator.and.precedence (Operator.and.chains ·)) e.render
    write " AND "
    Expr.renderConjunction rest

/-- Entries without names, for a select within a term. -/
def Target.renderNested : List Target → Rendering Unit
  | [] => return
  | [⟨_, e, _⟩] => e.render
  | ⟨_, e, _⟩ :: rest => do
    e.render
    write ", "
    Target.renderNested rest

/-- Entries with names. An entry whose text was written before shares its output and is left out;
`first` tells whether none was written yet. -/
def Target.renderNamed (first : Bool) : List Target → Rendering Unit
  | [] => return
  | ⟨field, e, type⟩ :: rest => do
    let f ← capture e.render
    match ← claim f field type with
    | some name =>
      if !first then write ", "
      put f
      write " AS "
      write name
      Target.renderNamed false rest
    | none => Target.renderNamed first rest

def SortTerm.renderAll : List SortTerm → Rendering Unit
  | [] => return
  | [⟨e, order⟩] => do
    e.render
    if order = .descending then write " DESC"
  | ⟨e, order⟩ :: rest => do
    e.render
    if order = .descending then write " DESC"
    write ", "
    SortTerm.renderAll rest

/-- A select; its tables are in sight of all its clauses. -/
def Select.render : Select → Level → Rendering Unit
  | ⟨table, joins, targets, filters, sorting, lock, limit⟩, level => do
    if targets.isEmpty then throw (.statement .noTargets)
    if let some n := limit then
      if n < 0 then throw (.statement (.negativeLimit n.toInt))
    enter table
    joins.forM enter
    write "SELECT "
    match level with
    | .outermost => Target.renderNamed true targets
    | .nested => Target.renderNested targets
    write " FROM "
    separated ", " Table.render (table :: joins)
    if !filters.isEmpty then
      write " WHERE "
      Expr.renderConjunction filters
    if !sorting.isEmpty then
      write " ORDER BY "
      SortTerm.renderAll sorting
    if let some l := lock then write l.text
    if let some n := limit then
      write " LIMIT "
      Rendering.bind limitType (.scalar (.int64 n))
    joins.reverse.forM leave
    leave table

end

/-- The condition of a clause, if there is any. -/
def renderFilters (filters : List Expr) : Rendering Unit :=
  if filters.isEmpty then return
  else do
    write " WHERE "
    Expr.renderConjunction filters

end TypedSql.Sql

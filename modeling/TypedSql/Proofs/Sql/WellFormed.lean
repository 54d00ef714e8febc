import TypedSql.Proofs.Sql.Pieces

/-! What a statement needs to be rendered: the terms that stand in it, and what each of them needs. -/
namespace TypedSql.Sql

/-- A value has a protocol form in a type. -/
def Encodes (type : TypeRef) (v : Value) : Prop := ∃ w, type.encode v = .ok w

/-- A select lists something and has no negative limit. -/
structure Select.Admissible (s : Select) : Prop where
  targets : s.targets ≠ []
  limit : ∀ n ∈ s.limit, 0 ≤ n.toInt

/-- The terms of the clauses of a select. -/
def Select.terms (s : Select) : List Expr :=
  s.targets.map Target.expr ++ s.filters ++ s.sorting.map SortTerm.expr

theorem Select.forall_terms {P : Expr → Prop} {s : Select} : (∀ e ∈ s.terms, P e) ↔
    (∀ t ∈ s.targets, P t.expr) ∧ (∀ e ∈ s.filters, P e) ∧ ∀ t ∈ s.sorting, P t.expr := by
  rw [terms, List.forall_mem_append, List.forall_mem_append, List.forall_mem_map, List.forall_mem_map,
    and_assoc]

namespace Expr

/-- The terms right below a term; below a subquery are the terms of its clauses. -/
def children : Expr → List Expr
  | column _ | param _ _ | default | bool _ => []
  | call _ args => args
  | binary _ left right => [left, right]
  | not e | nullTest e _ | within e _ _ => [e]
  | subquery s | existence s => s.terms

/-- Terms by induction: what holds of a term if it holds of those right below it holds of all. -/
@[elab_as_elim] theorem children_induction {P : Expr → Prop}
    (step : ∀ e : Expr, (∀ part ∈ e.children, P part) → P e) (e : Expr) : P e := by
  have select {s : Select} (hs : s.Each P) : ∀ part ∈ s.terms, P part :=
    Select.forall_terms.mpr ⟨hs.targets, hs.filters, hs.sorting⟩
  induction e using Expr.induction with
  | column c => exact step _ nofun
  | param v type => exact step _ nofun
  | default => exact step _ nofun
  | bool b => exact step _ nofun
  | call function args ih => exact step _ ih
  | binary op left right hl hr => exact step _ (by simpa [children] using ⟨hl, hr⟩)
  | not e ih => exact step _ (by simpa [children] using ih)
  | nullTest e negated ih => exact step _ (by simpa [children] using ih)
  | within e values element ih => exact step _ (by simpa [children] using ih)
  | subquery s ih => exact step _ (select ih)
  | existence s ih => exact step _ (select ih)

/-- A term stands in another, at whatever depth. -/
inductive Occurs (e : Expr) : Expr → Prop
  | self : Occurs e e
  | inside {whole part : Expr} : part ∈ whole.children → Occurs e part → Occurs e whole

/-- What a term needs besides what the terms below it need: its values have a form in their types, and its
selects are complete. -/
def Admissible : Expr → Prop
  | param v type => Encodes type v
  | within _ values element => ∃ array, element.arrayOf? = some array ∧ Encodes array (.array values)
  | subquery s | existence s => s.Admissible
  | _ => True

/-- Whatever stands in a term is admissible. -/
def WellFormed (e : Expr) : Prop := ∀ part : Expr, part.Occurs e → part.Admissible

theorem wellFormed_iff {e : Expr} :
    e.WellFormed ↔ e.Admissible ∧ ∀ part ∈ e.children, part.WellFormed := by
  constructor
  · intro h
    exact ⟨h e .self, fun part hpart inner hinner => h inner (.inside hpart hinner)⟩
  · rintro ⟨hself, hchildren⟩ part hpart
    cases hpart with
    | self => exact hself
    | inside hmem hinner => exact hchildren _ hmem part hinner

end Expr

/-- A column is one of the table's. -/
def Table.Has (t : Table) (c : Column) : Prop := c.owner = t.sqlName ∧ c.name ∈ t.members.map Prod.fst

/-- Columns can be set together: they are the table's, and none is there twice. -/
structure Table.Settable (t : Table) (columns : List Column) : Prop where
  owned : ∀ c ∈ columns, t.Has c
  distinct : (columns.map Column.name).Nodup

/-- A conflict clause names columns of the table only. If it updates, it says on which conflict, and what. -/
structure OnConflict.Admissible (t : Table) (c : OnConflict) : Prop where
  target : ∀ column ∈ c.target, t.Has column
  update : ∀ assignments filters, c.action = .update assignments filters →
    c.target ≠ [] ∧ assignments ≠ [] ∧ t.Settable (assignments.map Assignment.column)

structure Insert.Admissible (i : Insert) : Prop where
  rows : i.rows ≠ []
  columns : ∃ row ∈ i.rows, row ≠ []
  settable : ∀ row ∈ i.rows, i.table.Settable (row.map Assignment.column)
  conflict : ∀ c ∈ i.conflict, c.Admissible i.table

structure Update.Admissible (u : Update) : Prop where
  filters : u.filters ≠ []
  assignments : u.assignments ≠ []
  settable : u.table.Settable (u.assignments.map Assignment.column)

structure Delete.Admissible (d : Delete) : Prop where
  filters : d.filters ≠ []

def OnConflict.terms (c : OnConflict) : List Expr :=
  match c.action with
  | .nothing => []
  | .update assignments filters => assignments.map Assignment.expr ++ filters

namespace Statement

/-- What a statement needs besides what its terms need. -/
def Admissible : Statement → Prop
  | select s => s.Admissible
  | insert i => i.Admissible
  | update u => u.Admissible
  | delete d => d.Admissible

/-- The terms of all clauses. -/
def terms : Statement → List Expr
  | select s => s.terms
  | insert i =>
    (i.rows.flatMap fun row => row.map Assignment.expr) ++ (i.conflict.map OnConflict.terms).getD [] ++
      i.returning.map Target.expr
  | update u => u.assignments.map Assignment.expr ++ u.filters ++ u.returning.map Target.expr
  | delete d => d.filters ++ d.returning.map Target.expr

/-- A statement has what it needs, and so has whatever stands in it, at any depth of subqueries. -/
structure WellFormed (s : Statement) : Prop where
  admissible : s.Admissible
  terms : ∀ e ∈ s.terms, e.WellFormed

end Statement

end TypedSql.Sql

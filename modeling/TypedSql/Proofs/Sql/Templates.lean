import TypedSql.Proofs.Conversion.Steps
import TypedSql.Proofs.Sql.Success

/-! Terms with the values taken out of their parameters, and the texts that terms of one template have. -/
namespace TypedSql.Sql

mutual

/-- A term with the values taken out of its parameters and limits. -/
def Expr.template : Expr → Expr
  | .param _ type => .param .null type
  | .within e _ element => .within e.template [] element
  | .call function args => .call function (Expr.allTemplates args)
  | .binary op left right => .binary op left.template right.template
  | .not e => .not e.template
  | .nullTest e negated => .nullTest e.template negated
  | .subquery s => .subquery s.template
  | .existence s => .existence s.template
  | .column c => .column c
  | .default => .default
  | .bool b => .bool b

def Expr.allTemplates : List Expr → List Expr
  | [] => []
  | e :: rest => e.template :: Expr.allTemplates rest

def Target.allTemplates : List Target → List Target
  | [] => []
  | ⟨field, e, type⟩ :: rest => ⟨field, e.template, type⟩ :: Target.allTemplates rest

def SortTerm.allTemplates : List SortTerm → List SortTerm
  | [] => []
  | ⟨e, order⟩ :: rest => ⟨e.template, order⟩ :: SortTerm.allTemplates rest

def Select.template : Select → Select
  | ⟨table, joins, targets, filters, sorting, lock, limit⟩ =>
    ⟨table, joins, Target.allTemplates targets, Expr.allTemplates filters, SortTerm.allTemplates sorting,
      lock, limit.map fun _ => 0⟩

end

def Target.template (t : Target) : Target := ⟨t.field, t.expr.template, t.type⟩

def SortTerm.template (t : SortTerm) : SortTerm := ⟨t.expr.template, t.order⟩

@[simp] theorem Expr.allTemplates_eq (es : List Expr) : Expr.allTemplates es = es.map Expr.template := by
  induction es with
  | nil => rfl
  | cons e es ih => rw [Expr.allTemplates, ih, List.map_cons]

@[simp] theorem Target.allTemplates_eq (ts : List Target) :
    Target.allTemplates ts = ts.map Target.template := by
  induction ts with
  | nil => rfl
  | cons t ts ih =>
    obtain ⟨_, _, _⟩ := t
    rw [Target.allTemplates, ih, List.map_cons, Target.template]

@[simp] theorem SortTerm.allTemplates_eq (ts : List SortTerm) :
    SortTerm.allTemplates ts = ts.map SortTerm.template := by
  induction ts with
  | nil => rfl
  | cons t ts ih =>
    obtain ⟨_, _⟩ := t
    rw [SortTerm.allTemplates, ih, List.map_cons, SortTerm.template]

def Assignment.template (a : Assignment) : Assignment := ⟨a.column, a.expr.template⟩

def OnConflict.template (c : OnConflict) : OnConflict :=
  ⟨c.target, match c.action with
    | .nothing => .nothing
    | .update assignments filters =>
      .update (assignments.map Assignment.template) (filters.map Expr.template)⟩

def Insert.template (i : Insert) : Insert :=
  ⟨i.table, i.rows.map (List.map Assignment.template), i.conflict.map OnConflict.template,
    i.returning.map Target.template⟩

def Update.template (u : Update) : Update :=
  ⟨u.table, u.sources, u.assignments.map Assignment.template, u.filters.map Expr.template,
    u.returning.map Target.template⟩

def Delete.template (d : Delete) : Delete :=
  ⟨d.table, d.sources, d.filters.map Expr.template, d.returning.map Target.template⟩

/-- A statement with the values taken out of its parameters and limits. Statements with one template differ
in these values only. -/
def Statement.template : Statement → Statement
  | .select s => .select s.template
  | .insert i => .insert i.template
  | .update u => .update u.template
  | .delete d => .delete d.template

/-- A piece with the value taken out of its parameter. -/
def Piece.template : Piece → Piece
  | .parameter p => .parameter ⟨.null, p.type⟩
  | p => p

def Fragment.template (f : Fragment) : Fragment := f.map Piece.template

namespace Fragment

variable {f g : Fragment}

@[simp] theorem template_nil : template [] = [] := rfl

@[simp] theorem template_cons (p : Piece) : template (p :: f) = p.template :: template f := rfl

@[simp] theorem template_append : template (f ++ g) = template f ++ template g := List.map_append

/-- A placeholder and its cast depend on the type of the parameter only. -/
theorem template_sql (f : Fragment) : f.template.sql = f.sql := by
  have hpiece : Piece.sql ∘ Piece.template = Piece.sql := by
    funext p
    cases p <;> rfl
  rw [sql, template, List.map_map, hpiece, sql]

theorem template_types (f : Fragment) :
    f.template.params.map Parameter.type = f.params.map Parameter.type := by
  induction f with
  | nil => rfl
  | cons p f ih =>
    cases p with
    | parameter p => exact congrArg (p.type :: ·) ih
    | text s | name s | function s => exact ih

end Fragment

@[simp] theorem wrapped_template (wrap : Bool) (f : Fragment) :
    (wrapped wrap f).template = wrapped wrap f.template := by
  cases wrap <;> simp [wrapped, Piece.template]

section Terms

variable {vis : List Column}

/-- Parentheses depend on the operators. -/
@[simp] theorem Expr.template_needsParentheses (e : Expr) (parent : Nat) (chains : Operator → Bool) :
    e.template.needsParentheses parent chains = e.needsParentheses parent chains := by
  cases e <;> rfl

/-- Two texts agree if their templates are the same. -/
abbrev Alike (r r' : Except Error Fragment) : Prop := Agree Fragment.template r r'

theorem Alike.separated {separator : String} {parts parts' : List (Except Error Fragment)}
    (h : List.Forall₂ Alike parts parts') :
    Alike (separatedPieces separator parts) (separatedPieces separator parts') := by
  induction h with
  | nil => exact .ok rfl
  | cons hpart hrest ih =>
    cases hrest with
    | nil => exact hpart
    | cons hnext hrest =>
      refine hpart.bind fun f f' hf => ih.bind fun g g' hg => .ok ?_
      simp [hf, hg]

theorem wherePieces_alike {filters filters' : List (Except Error Fragment)}
    (h : List.Forall₂ Alike filters filters') : Alike (wherePieces filters) (wherePieces filters') := by
  cases h with
  | nil => exact .ok rfl
  | cons hpart hrest => exact (Alike.separated (.cons hpart hrest)).map fun f f' hf => by simp [hf]

private theorem orderPieces_alike {sorting sorting' : List (Except Error Fragment)}
    (h : List.Forall₂ Alike sorting sorting') : Alike (orderPieces sorting) (orderPieces sorting') := by
  cases h with
  | nil => exact .ok rfl
  | cons hpart hrest => exact (Alike.separated (.cons hpart hrest)).map fun f f' hf => by simp [hf]

private theorem bindPieces_alike (type : TypeRef) (v v' : Value) :
    Alike (bindPieces type v) (bindPieces type v') := by
  intro f f' hf hf'
  obtain ⟨w, -, rfl⟩ := map_eq_ok.mp hf
  obtain ⟨w', -, rfl⟩ := map_eq_ok.mp hf'
  rfl

private theorem limitPieces_alike {limit limit' : Option Int64} (h : limit.isSome = limit'.isSome) :
    Alike (limitPieces limit) (limitPieces limit') := by
  cases limit with
  | none =>
    cases limit' with
    | none => exact .refl _
    | some n' => cases h
  | some n =>
    cases limit' with
    | none => cases h
    | some n' => exact (bindPieces_alike limitType _ _).map fun f f' hf => by simp [hf]

theorem Expr.conjunctPieces_alike {e e' : Expr}
    (hparentheses : ∀ parent chains, e.needsParentheses parent chains = e'.needsParentheses parent chains)
    (h : Alike (e.pieces vis) (e'.pieces vis)) : Alike (e.conjunctPieces vis) (e'.conjunctPieces vis) :=
  h.map fun f f' hf => by simp [operandPieces, hf, hparentheses]

theorem SortTerm.pieces_alike {t t' : SortTerm} (horder : t.order = t'.order)
    (h : Alike (t.expr.pieces vis) (t'.expr.pieces vis)) : Alike (t.pieces vis) (t'.pieces vis) :=
  h.map fun f f' hf => by simp [sortPieces, hf, horder]

theorem clausePieces_alike {filters filters' sorting sorting' : List (Except Error Fragment)}
    {limit limit' : Option Int64} (tables : List Table) (lock : Option Lock)
    (hfilters : List.Forall₂ Alike filters filters') (hsorting : List.Forall₂ Alike sorting sorting')
    (hlimit : limit.isSome = limit'.isSome) :
    Alike (clausePieces tables filters sorting lock limit)
      (clausePieces tables filters' sorting' lock limit') := by
  have htables : Alike (fromPieces tables) (fromPieces tables) := .refl _
  refine htables.bind fun f f' hf => (wherePieces_alike hfilters).bind fun g g' hg => ?_
  refine (orderPieces_alike hsorting).bind fun k k' hk => (limitPieces_alike hlimit).bind fun l l' hl => ?_
  exact .ok (by simp [hf, hg, hk, hl])

private theorem map_alike {α : Type} (pieces : α → Except Error Fragment) (template : α → α)
    {items : List α} (h : ∀ i ∈ items, Alike (pieces i) (pieces (template i))) :
    List.Forall₂ Alike (items.map pieces) ((items.map template).map pieces) := by
  rw [List.map_map, List.forall₂_map_left_iff, List.forall₂_map_right_iff, List.forall₂_same]
  exact h

private theorem Select.pieces_alike {s : Select}
    (hs : s.Each fun e => ∀ vis, Alike (e.pieces vis) (e.template.pieces vis)) (vis : List Column) :
    Alike (s.pieces vis) (s.template.pieces vis) := by
  obtain ⟨table, joins, targets, filters, sorting, lock, limit⟩ := s
  let inner := inSight (table :: joins) vis
  have htargets := map_alike (fun t => t.expr.pieces inner) Target.template fun t ht =>
    hs.targets t ht inner
  have hfilters := map_alike (Expr.conjunctPieces inner) Expr.template fun e he =>
    Expr.conjunctPieces_alike (fun _ _ => (e.template_needsParentheses _ _).symm) (hs.filters e he inner)
  have hsorting := map_alike (SortTerm.pieces inner) SortTerm.template fun t ht =>
    SortTerm.pieces_alike rfl (hs.sorting t ht inner)
  have hlimit : limit.isSome = (limit.map fun _ => (0 : Int64)).isSome := Option.isSome_map.symm
  simp only [pieces, template, Target.each_eq, Expr.eachConjunct_eq, SortTerm.each_eq,
    Target.allTemplates_eq, Expr.allTemplates_eq, SortTerm.allTemplates_eq]
  refine .checked ((Alike.separated htargets).bind fun f f' hf => ?_)
  refine (clausePieces_alike (table :: joins) lock hfilters hsorting hlimit).bind fun g g' hg => ?_
  exact .ok (by simp [hf, hg])

/-- The text of a term follows its template. -/
theorem Expr.pieces_template (e : Expr) (vis : List Column) :
    Alike (e.pieces vis) (e.template.pieces vis) := by
  induction e using Expr.induction generalizing vis with
  | column c => exact .refl _
  | param v type => exact bindPieces_alike type v .null
  | default => exact .refl _
  | bool b => exact .refl _
  | call function args ih =>
    have hargs := map_alike (Expr.pieces vis) Expr.template fun e he => ih e he vis
    rw [template, pieces, pieces, each_eq, each_eq, allTemplates_eq]
    exact (Alike.separated hargs).map fun f f' hf => by simp [hf]
  | binary op left right hl hr =>
    refine (hl vis).bind fun f f' hf => (hr vis).map fun g g' hg => ?_
    simp [operandPieces, hf, hg]
  | not e ih => exact (ih vis).map fun f f' hf => by simp [operandPieces, hf]
  | nullTest e negated ih => exact (ih vis).map fun f f' hf => by simp [operandPieces, hf]
  | within e values element ih =>
    rw [template, pieces, pieces]
    cases element.arrayOf? with
    | none => exact .refl _
    | some array =>
      refine (ih vis).bind fun f f' hf => (bindPieces_alike array _ _).map fun g g' hg => ?_
      simp [operandPieces, hf, hg]
  | subquery s ih => exact (Select.pieces_alike ih vis).map fun f f' hf => by simp [hf]
  | existence s ih => exact (Select.pieces_alike ih vis).map fun f f' hf => by simp [hf]

namespace Expr

theorem children_template (e : Expr) : e.template.children = e.children.map template := by
  have select (s : Select) : s.template.terms = s.terms.map template := by
    obtain ⟨table, joins, targets, filters, sorting, lock, limit⟩ := s
    simp [Select.template, Select.terms, Target.template, SortTerm.template, Function.comp_def]
  cases e with
  | subquery s => exact select s
  | existence s => exact select s
  | call function args => exact allTemplates_eq args
  | _ => rfl

/-- Null has a form in every type, and no value is left that could have none. -/
theorem Admissible.template {e : Expr} (h : e.Admissible) : e.template.Admissible := by
  have select {s : Select} (hs : s.Admissible) : s.template.Admissible := by
    obtain ⟨table, joins, targets, filters, sorting, lock, limit⟩ := s
    refine ⟨by simpa [Select.template] using hs.targets, fun n hn => ?_⟩
    obtain ⟨_, -, rfl⟩ := Option.map_eq_some_iff.mp hn
    decide
  cases e with
  | param v type => exact ⟨.null, type.descriptor.encode_null⟩
  | within e values element =>
    obtain ⟨array, harray, -⟩ := h
    refine ⟨array, harray, ?_⟩
    obtain ⟨oid, -, rfl⟩ := Option.map_eq_some_iff.mp harray
    exact ⟨_, rfl⟩
  | subquery s => exact select h
  | existence s => exact select h
  | _ => trivial

theorem WellFormed.template {e : Expr} (h : e.WellFormed) : e.template.WellFormed := by
  induction e using children_induction with
  | step e ih =>
    rw [wellFormed_iff] at h ⊢
    obtain ⟨hself, hchildren⟩ := h
    rw [children_template, List.forall_mem_map]
    exact ⟨hself.template, fun part hpart => ih part hpart (hchildren part hpart)⟩

/-- Terms with one template have texts that differ at most in the values of their parameters. -/
theorem pieces_alike {e e' : Expr} (h : e.template = e'.template) (vis : List Column) :
    Alike (e.pieces vis) (e'.pieces vis) := by
  intro f f' hf hf'
  have hsucceeds := (e.template.pieces_succeeds vis).mpr ((e.pieces_succeeds vis).mp ⟨f, hf⟩).template
  exact (e.pieces_template vis).through (h ▸ e'.pieces_template vis) hsucceeds f f' hf hf'

end Expr

end Terms

end TypedSql.Sql

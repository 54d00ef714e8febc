import TypedSql.Proofs.Sql.Whole
import Mathlib.Data.List.Forall2

/-! The values a statement binds, in the order of its clauses, and the parameters it is rendered with. -/
namespace TypedSql.Sql

/-- A value bound in a type. -/
structure Binding where
  value : Value
  type : TypeRef

/-- A parameter is the protocol form of a value in its type. -/
def Binding.Becomes (b : Binding) (p : Parameter) : Prop :=
  b.type.encode b.value = .ok p.value ∧ p.type = b.type

def limitBindings (limit : Option Int64) : List Binding :=
  (limit.map fun n => ⟨.scalar (.int64 n), limitType⟩).toList

mutual

/-- The values bound within a term, from left to right. -/
def Expr.bindings : Expr → List Binding
  | .column _ | .default | .bool _ => []
  | .param v type => [⟨v, type⟩]
  | .call _ args => Expr.allBindings args
  | .binary _ left right => left.bindings ++ right.bindings
  | .not e | .nullTest e _ => e.bindings
  | .within e values element =>
    e.bindings ++ (element.arrayOf?.map fun array => ⟨.array values, array⟩).toList
  | .subquery s | .existence s => s.bindings

def Expr.allBindings : List Expr → List Binding
  | [] => []
  | e :: rest => e.bindings ++ Expr.allBindings rest

def Target.allBindings : List Target → List Binding
  | [] => []
  | ⟨_, e, _⟩ :: rest => e.bindings ++ Target.allBindings rest

def SortTerm.allBindings : List SortTerm → List Binding
  | [] => []
  | ⟨e, _⟩ :: rest => e.bindings ++ SortTerm.allBindings rest

/-- The values bound within a select of a term: entries, conditions, order, limit. -/
def Select.bindings : Select → List Binding
  | ⟨_, _, targets, filters, sorting, _, limit⟩ =>
    Target.allBindings targets ++ Expr.allBindings filters ++ SortTerm.allBindings sorting ++
      limitBindings limit

end

@[simp] theorem Expr.allBindings_eq (es : List Expr) : Expr.allBindings es = es.flatMap Expr.bindings := by
  induction es with
  | nil => rfl
  | cons e es ih => rw [Expr.allBindings, ih, List.flatMap_cons]

@[simp] theorem Target.allBindings_eq (ts : List Target) :
    Target.allBindings ts = ts.flatMap fun t => t.expr.bindings := by
  induction ts with
  | nil => rfl
  | cons t ts ih => obtain ⟨_, _, _⟩ := t; rw [Target.allBindings, ih, List.flatMap_cons]

@[simp] theorem SortTerm.allBindings_eq (ts : List SortTerm) :
    SortTerm.allBindings ts = ts.flatMap fun t => t.expr.bindings := by
  induction ts with
  | nil => rfl
  | cons t ts ih => obtain ⟨_, _⟩ := t; rw [SortTerm.allBindings, ih, List.flatMap_cons]

/-- The entries of a list that are written; an entry whose text was written before is left out. -/
def Target.written (vis : List Column) (targets : List Target) : List Target :=
  match Target.entries vis targets with
  | .ok es => (Target.kept [] es).map Prod.fst
  | .error _ => []

def Target.writtenBindings (vis : List Column) (targets : List Target) : List Binding :=
  (Target.written vis targets).flatMap fun t => t.expr.bindings

def Assignment.allBindings (assignments : List Assignment) : List Binding :=
  assignments.flatMap fun a => a.expr.bindings

/-- What follows the entries of a select. -/
def Select.clauseBindings (s : Select) : List Binding :=
  s.filters.flatMap Expr.bindings ++ s.sorting.flatMap (fun t => t.expr.bindings) ++ limitBindings s.limit

def rowBindings (columns : List Column) (row : List Assignment) : List Binding :=
  columns.flatMap fun c => ((Assignment.find? row c).getD .default).bindings

def OnConflict.bindings (c : OnConflict) : List Binding :=
  match c.action with
  | .nothing => []
  | .update assignments filters => Assignment.allBindings assignments ++ filters.flatMap Expr.bindings

/-- The values a statement binds, in the order of its clauses. -/
def Statement.bindings : Statement → List Binding
  | .select s =>
    Target.writtenBindings (inSight (s.table :: s.joins) []) s.targets ++ s.clauseBindings
  | .insert i =>
    i.rows.flatMap (rowBindings i.columns) ++ (i.conflict.map OnConflict.bindings).getD [] ++
      Target.writtenBindings (inSight [i.table] []) i.returning
  | .update u =>
    Assignment.allBindings u.assignments ++ u.filters.flatMap Expr.bindings ++
      Target.writtenBindings (inSight (u.table :: u.sources) []) u.returning
  | .delete d =>
    d.filters.flatMap Expr.bindings ++
      Target.writtenBindings (inSight (d.table :: d.sources) []) d.returning

/-- The parameters of some pieces are the protocol forms of some bound values, one by one. -/
def Binds (bs : List Binding) (f : Fragment) : Prop := List.Forall₂ Binding.Becomes bs f.params

namespace Binds

variable {bs bs' : List Binding} {f g : Fragment}

theorem nil : Binds [] [] := List.Forall₂.nil

theorem append (hf : Binds bs f) (hg : Binds bs' g) : Binds (bs ++ bs') (f ++ g) := by
  unfold Binds Fragment.params
  rw [List.filterMap_append]
  exact List.rel_append hf hg

/-- Pieces without a parameter may stand in front. -/
theorem behind {p : Piece} (hg : Binds bs g) (hp : p.parameter? = none) : Binds bs (p :: g) := by
  unfold Binds Fragment.params
  rw [List.filterMap_cons_none hp]
  exact hg

theorem skip {q : Fragment} (hq : q.all fun p => p.parameter?.isNone) : Binds [] q := by
  have hnone : q.params = [] := List.filterMap_eq_nil_iff.mpr fun p hp => by
    simpa using List.all_eq_true.mp hq p hp
  rw [Binds, hnone]
  exact List.Forall₂.nil

theorem before {q : Fragment} (hf : Binds bs f) (hq : q.all fun p => p.parameter?.isNone) :
    Binds bs (f ++ q) := by
  simpa using hf.append (skip hq)

theorem bound {type : TypeRef} {v : Value} (h : bindPieces type v = .ok f) : Binds [⟨v, type⟩] f := by
  obtain ⟨w, hw, rfl⟩ := map_eq_ok.mp h
  exact .cons ⟨hw, rfl⟩ .nil

theorem wrapped (hf : Binds bs f) (wrap : Bool) : Binds bs (Sql.wrapped wrap f) := by
  cases wrap with
  | false => exact hf
  | true => exact (hf.before (q := [.text ")"]) rfl).behind rfl

theorem joined {s : String} {bss : List (List Binding)} {fs : List Fragment}
    (h : List.Forall₂ Binds bss fs) : Binds bss.flatten (Sql.joined s fs) := by
  induction h with
  | nil => exact nil
  | @cons bs f bss fs hf hfs ih =>
    cases hfs with
    | nil => simpa [Sql.joined] using hf
    | cons hg hgs =>
      rw [joined_cons_cons, List.flatten_cons]
      exact hf.append (ih.behind rfl)

theorem each {α : Type} {s : String} {items : List α} {b : α → List Binding} {fs : List Fragment}
    (h : List.Forall₂ (fun i f => Binds (b i) f) items fs) : Binds (items.flatMap b) (Sql.joined s fs) := by
  rw [List.flatMap_def]
  apply joined
  rwa [List.forall₂_map_left_iff]

/-- Items with a text between them bind what each of them binds. -/
theorem separated {α : Type} {s : String} {pieces : α → Except Error Fragment} {items : List α}
    {b : α → List Binding} {f : Fragment} (h : separatedPieces s (items.map pieces) = .ok f)
    (hitems : ∀ i ∈ items, ∀ g, pieces i = .ok g → Binds (b i) g) :
    Binds (items.flatMap b) f := by
  obtain ⟨fs, hfs, rfl⟩ := separatedPieces_ok h hitems
  exact each hfs

end Binds

section Clauses

variable {vis : List Column} {f : Fragment}

private theorem table_bind (t : Table) : Binds [] t.pieces := by
  obtain ⟨name, other | other, members⟩ := t <;> exact .skip rfl

private theorem tables_bind (tables : List Table) :
    Binds [] (joined ", " (tables.map Table.pieces)) := by
  have hall : List.Forall₂ (fun _ f => Binds [] f) tables (tables.map Table.pieces) := by
    rw [List.forall₂_map_right_iff, List.forall₂_same]
    exact fun t _ => table_bind t
  have hbind := Binds.each (s := ", ") hall
  rwa [List.flatMap_eq_nil_iff.mpr fun _ _ => rfl] at hbind

private theorem where_bind {filters : List Expr}
    (hfilters : ∀ e ∈ filters, ∀ f, e.pieces vis = .ok f → Binds e.bindings f)
    (h : wherePieces (filters.map (Expr.conjunctPieces vis)) = .ok f) :
    Binds (filters.flatMap Expr.bindings) f := by
  cases filters with
  | nil => cases h; exact .nil
  | cons e es =>
    obtain ⟨g, hg, rfl⟩ := map_eq_ok.mp h
    refine (Binds.separated hg fun e he g hg => ?_).behind rfl
    obtain ⟨k, hk, rfl⟩ := map_eq_ok.mp hg
    exact (hfilters e he k hk).wrapped _

private theorem order_bind {sorting : List SortTerm}
    (hsorting : ∀ t ∈ sorting, ∀ f, t.expr.pieces vis = .ok f → Binds t.expr.bindings f)
    (h : orderPieces (sorting.map (SortTerm.pieces vis)) = .ok f) :
    Binds (sorting.flatMap fun t => t.expr.bindings) f := by
  cases sorting with
  | nil => cases h; exact .nil
  | cons t ts =>
    obtain ⟨g, hg, rfl⟩ := map_eq_ok.mp h
    refine (Binds.separated hg fun t ht g hg => ?_).behind rfl
    obtain ⟨k, hk, rfl⟩ := map_eq_ok.mp hg
    refine (hsorting t ht k hk).before ?_
    split <;> rfl

private theorem limit_bind {limit : Option Int64} (h : limitPieces limit = .ok f) :
    Binds (limitBindings limit) f := by
  cases limit with
  | none => cases h; exact .nil
  | some n =>
    obtain ⟨g, hg, rfl⟩ := map_eq_ok.mp h
    exact (Binds.bound hg).behind rfl

private theorem clauses_bind {s : Select}
    (hs : s.Each fun e => ∀ f, e.pieces vis = .ok f → Binds e.bindings f)
    (h : s.clausePieces vis = .ok f) : Binds s.clauseBindings f := by
  obtain ⟨filters, sorting, limit, hfilters, hsorting, hlimit, rfl⟩ := Select.clausePieces_ok h
  have hlock : (lockPieces s.lock).all (fun p => p.parameter?.isNone) = true := by
    cases s.lock <;> rfl
  have hsource := (tables_bind (s.table :: s.joins)).behind (p := .text " FROM ") rfl
  exact (((hsource.append (where_bind hs.filters hfilters)).append
    (order_bind hs.sorting hsorting)).before hlock).append (limit_bind hlimit)

theorem Select.pieces_bind {s : Select}
    (hs : s.Each fun e => ∀ vis f, e.pieces vis = .ok f → Binds e.bindings f)
    (h : s.pieces vis = .ok f) : Binds s.bindings f := by
  obtain ⟨-, list, clauses, hlist, hclauses, rfl⟩ := Select.pieces_ok h
  have hinner := hs.imp fun e he => he (inSight (s.table :: s.joins) vis)
  have ht : Binds (s.targets.flatMap fun t => t.expr.bindings) list := .separated hlist hinner.targets
  have hc : Binds s.clauseBindings clauses := clauses_bind hinner hclauses
  obtain ⟨table, joins, targets, filters, sorting, lock, limit⟩ := s
  simpa [bindings, clauseBindings] using (ht.append hc).behind (p := .text "SELECT ") rfl

end Clauses

/-- A term is rendered with the parameters it binds, from left to right. -/
theorem Expr.pieces_bind (e : Expr) (vis : List Column) (f : Fragment) (h : e.pieces vis = .ok f) :
    Binds e.bindings f := by
  refine Expr.pieces_induction (P := fun e _ f => Binds e.bindings f) ?column ?param ?default ?bool ?call
    ?binary ?not ?nullTest ?within ?subquery ?existence e vis f h
  case column =>
    intro c vis
    refine .skip ?_
    unfold Column.pieces
    split <;> rfl
  case param => exact fun v type vis f hf => .bound hf
  case default => exact fun vis => .skip rfl
  case bool => exact fun b vis => .skip rfl
  case call =>
    intro function args vis fs hfs
    rw [bindings, allBindings_eq]
    exact (((Binds.each hfs).before (q := [.text ")"]) rfl).behind rfl).behind rfl
  case binary =>
    intro op left right vis f g hf hg
    exact (hf.wrapped _).append ((((hg.wrapped _).behind rfl).behind rfl).behind rfl)
  case not => exact fun e vis f hf => (hf.wrapped _).behind rfl
  case nullTest => exact fun e negated vis f hf => (hf.wrapped _).before rfl
  case within =>
    intro e values element array vis f g harray hf hg
    rw [bindings, harray]
    exact ((hf.wrapped _).append ((Binds.bound hg).behind rfl)).before rfl
  case subquery =>
    intro s vis f ih hf
    exact ((Select.pieces_bind ih hf).before (q := [.text ")"]) rfl).behind rfl
  case existence =>
    intro s vis f ih hf
    exact ((Select.pieces_bind ih hf).before (q := [.text ")"]) rfl).behind rfl

section Statements

variable {vis : List Column} {f : Fragment}

private theorem listRest_bind {bss : List (List Binding)} {fs : List Fragment}
    (h : List.Forall₂ Binds bss fs) (index : Nat) : Binds bss.flatten (listRest index fs) := by
  induction h generalizing index with
  | nil => exact .nil
  | cons hf _ ih => exact ((hf.before rfl).append (ih (index + 1))).behind rfl

private theorem listPieces_bind {bss : List (List Binding)} {fs : List Fragment}
    (h : List.Forall₂ Binds bss fs) : Binds bss.flatten (listPieces true 0 fs) := by
  cases h with
  | nil => exact .nil
  | cons hf hfs => exact (hf.before rfl).append (listRest_bind hfs 1)

theorem Target.listed_bind {targets : List Target} {l : Listed}
    (h : Target.listed vis targets = .ok l) : Binds (Target.writtenBindings vis targets) l.1 := by
  obtain ⟨es, hes, rfl⟩ := map_eq_ok.mp h
  have hwritten : Target.writtenBindings vis targets =
      ((Target.kept [] es).map fun e => e.1.expr.bindings).flatten := by
    rw [Target.writtenBindings, Target.written, hes, List.flatMap_map, List.flatMap_def]
  rw [hwritten]
  apply listPieces_bind
  rw [List.forall₂_map_left_iff, List.forall₂_map_right_iff, List.forall₂_same]
  intro e he
  exact e.1.expr.pieces_bind vis e.2 (Target.entries_mem hes (Target.kept_subset [] es he)).2

private theorem returning_bind {targets : List Target} {l : Listed}
    (h : returningPieces vis targets = .ok l) : Binds (Target.writtenBindings vis targets) l.1 := by
  unfold returningPieces at h
  cases targets with
  | nil => cases h; exact .nil
  | cons t ts =>
    obtain ⟨l, hl, rfl⟩ := map_eq_ok.mp h
    exact (Target.listed_bind hl).behind rfl

private theorem columns_bind {columns : List Column} (h : namesPieces columns = .ok f) : Binds [] f := by
  have hbind := Binds.separated (b := fun _ => []) h fun c _ g hg => by
    cases hg
    exact .skip rfl
  rwa [List.flatMap_eq_nil_iff.mpr fun _ _ => rfl] at hbind

private theorem assignments_bind {assignments : List Assignment}
    (h : assignmentsPieces vis assignments = .ok f) : Binds (Assignment.allBindings assignments) f := by
  refine .separated h fun a _ g hg => ?_
  obtain ⟨e, he, rfl⟩ := map_eq_ok.mp hg
  exact ((a.expr.pieces_bind vis e he).behind rfl).behind rfl

private theorem filters_bind {filters : List Expr} (h : filtersPieces vis filters = .ok f) :
    Binds (filters.flatMap Expr.bindings) f :=
  where_bind (fun e _ => e.pieces_bind vis) h

private theorem sources_bind {word : String} {sources : List Table}
    (h : sourcesPieces word sources = .ok f) : Binds [] f := by
  unfold sourcesPieces at h
  split at h
  · cases h
    exact .nil
  · obtain ⟨g, hg, rfl⟩ := map_eq_ok.mp h
    rw [tablesPieces_ok hg]
    exact (tables_bind sources).behind rfl

private theorem row_bind {columns : List Column} {row : List Assignment}
    (h : rowPieces vis columns row = .ok f) : Binds (rowBindings columns row) f := by
  obtain ⟨g, hg, rfl⟩ := map_eq_ok.mp h
  have hrow : Binds (rowBindings columns row) g := .separated hg fun c _ => Expr.pieces_bind _ vis
  exact (hrow.before (q := [.text ")"]) rfl).behind rfl

private theorem target_bind {c : OnConflict} (h : c.targetPieces = .ok f) : Binds [] f := by
  unfold OnConflict.targetPieces at h
  split at h
  · cases h
    exact .nil
  · obtain ⟨g, hg, rfl⟩ := map_eq_ok.mp h
    exact ((columns_bind hg).before (q := [.text ")"]) rfl).behind rfl

private theorem action_bind {t : Table} {c : OnConflict} (h : c.action.pieces vis t = .ok f) :
    Binds c.bindings f := by
  unfold OnConflict.bindings
  cases hc : c.action with
  | nothing =>
    rw [hc] at h
    cases h
    exact .skip rfl
  | update assignments filters =>
    rw [hc] at h
    obtain ⟨g, hg, h⟩ := bind_eq_ok.mp h
    obtain ⟨g', hg', h⟩ := bind_eq_ok.mp h
    cases h
    exact ((assignments_bind hg).append (filters_bind hg')).behind rfl

private theorem conflict_bind {t : Table} {conflict : Option OnConflict}
    (h : conflictPieces vis t conflict = .ok f) :
    Binds ((conflict.map OnConflict.bindings).getD []) f := by
  cases conflict with
  | none => cases h; exact .nil
  | some c =>
    obtain ⟨-, target, action, htarget, haction, rfl⟩ := OnConflict.pieces_ok h
    exact ((target_bind htarget).append (action_bind haction)).behind rfl

/-- A statement is rendered with the parameters it binds, in the order of its clauses. -/
theorem Statement.listed_bind {s : Statement} {l : Listed} (h : s.listed = .ok l) :
    Binds s.bindings l.1 := by
  cases s with
  | select s =>
    obtain ⟨-, list, clauses, hlist, hclauses, rfl⟩ := Select.listed_ok h
    have hc := clauses_bind (.of_all fun e => e.pieces_bind _) hclauses
    exact ((Target.listed_bind hlist).append hc).behind rfl
  | insert i =>
    obtain ⟨-, names, rows, conflict, returning, hnames, hrows, hconflict, hreturning, rfl⟩ :=
      Insert.listed_ok h
    have hr : Binds (i.rows.flatMap (rowBindings i.columns)) rows :=
      .separated hrows fun row _ g hg => row_bind hg
    have hhead := ((table_bind i.table).append ((columns_bind hnames).behind (p := .text "(") rfl)).append
      (hr.behind (p := .text ") VALUES ") rfl)
    exact ((hhead.append (conflict_bind hconflict)).append (returning_bind hreturning)).behind rfl
  | update u =>
    obtain ⟨-, assignments, sources, filters, returning, hassignments, hsources, hfilters, hreturning, rfl⟩ :=
      Update.listed_ok h
    have hset := (table_bind u.table).append
      ((assignments_bind hassignments).behind (p := .text " SET ") rfl)
    have hall := (((hset.append (sources_bind hsources)).append (filters_bind hfilters)).append
      (returning_bind hreturning)).behind (p := .text "UPDATE ") rfl
    simpa [bindings, Listed.behind] using hall
  | delete d =>
    obtain ⟨-, sources, filters, returning, hsources, hfilters, hreturning, rfl⟩ := Delete.listed_ok h
    have hall := ((((table_bind d.table).append (sources_bind hsources)).append
      (filters_bind hfilters)).append (returning_bind hreturning)).behind (p := .text "DELETE FROM ") rfl
    simpa [bindings, Listed.behind] using hall

end Statements

end TypedSql.Sql

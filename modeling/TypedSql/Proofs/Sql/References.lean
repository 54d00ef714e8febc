import TypedSql.Proofs.Sql.Binding
import TypedSql.Proofs.Sql.Meaning
import TypedSql.Proofs.Sql.Scoping

/-! The columns a rendered select refers to, found by reading its text, mean the columns it was built
from. -/
namespace TypedSql.Sql

/-- A column as a text refers to it, within the tables that the text has open there. -/
structure Reference where
  levels : List (List (String × Option String))
  owner : Option String
  name : String

mutual

/-- The columns a tree refers to, in the order of the text. -/
def Tree.references (levels : List (List (String × Option String))) : Tree → List Reference
  | .column owner name => [⟨levels, owner, name⟩]
  | .param _ | .default | .bool _ => []
  | .call _ args => Tree.allReferences levels args
  | .binary _ left right => left.references levels ++ right.references levels
  | .not t | .nullTest t _ | .member t _ => t.references levels
  | .nested _ q => q.references levels

def Tree.allReferences (levels : List (List (String × Option String))) : List Tree → List Reference
  | [] => []
  | t :: rest => t.references levels ++ Tree.allReferences levels rest

def Tree.optionReferences (levels : List (List (String × Option String))) :
    Option Tree → List Reference
  | none => []
  | some t => t.references levels

def Item.allReferences (levels : List (List (String × Option String))) : List Item → List Reference
  | [] => []
  | ⟨t, _⟩ :: rest => t.references levels ++ Item.allReferences levels rest

/-- The tables of a query are open in all its clauses. -/
def Query.references (levels : List (List (String × Option String))) : Query → List Reference
  | ⟨entries, tables, condition, sorting, _, _⟩ =>
    Item.allReferences (tables :: levels) entries ++
      Tree.optionReferences (tables :: levels) condition ++
      Item.allReferences (tables :: levels) sorting

end

@[simp] theorem Tree.allReferences_eq (levels : List (List (String × Option String))) (ts : List Tree) :
    Tree.allReferences levels ts = ts.flatMap (Tree.references levels) := by
  induction ts with
  | nil => rfl
  | cons t ts ih => rw [Tree.allReferences, ih, List.flatMap_cons]

@[simp] theorem Item.allReferences_eq (levels : List (List (String × Option String))) (is : List Item) :
    Item.allReferences levels is = is.flatMap fun i => i.term.references levels := by
  induction is with
  | nil => rfl
  | cons i is ih => obtain ⟨_, _⟩ := i; rw [Item.allReferences, ih, List.flatMap_cons]; rfl

/-- Grouping a chain otherwise leaves the references in their order. -/
theorem Tree.Regroup.references_eq {a b : Tree} (h : a.Regroup b)
    (levels : List (List (String × Option String))) : a.references levels = b.references levels := by
  induction h generalizing levels with
  | chain h a b c => simp [references]
  | entry before suffix behind _ ih => simp [references, Query.references, Item.term, ih]
  | condition _ ih => simp [references, Query.references, optionReferences, ih]
  | sorted before suffix behind _ ih => simp [references, Query.references, Item.term, ih]
  | _ => simp [references, *]

theorem Tree.Regroups.references_eq {a b : Tree} (h : a.Regroups b)
    (levels : List (List (String × Option String))) : a.references levels = b.references levels := by
  induction h with
  | refl => rfl
  | tail _ hstep ih => exact ih.trans (hstep.references_eq levels)

mutual

/-- The columns a term refers to, from left to right, each within the levels around it. -/
def Expr.occurrences (levels : Levels) : Expr → List Occurrence
  | .column c => [⟨levels, c⟩]
  | .param _ _ | .default | .bool _ => []
  | .call _ args => Expr.allOccurrences levels args
  | .binary _ left right => left.occurrences levels ++ right.occurrences levels
  | .not e | .nullTest e _ | .within e _ _ => e.occurrences levels
  | .subquery s | .existence s => s.occurrences levels

def Expr.allOccurrences (levels : Levels) : List Expr → List Occurrence
  | [] => []
  | e :: rest => e.occurrences levels ++ Expr.allOccurrences levels rest

def Target.allOccurrences (levels : Levels) : List Target → List Occurrence
  | [] => []
  | ⟨_, e, _⟩ :: rest => e.occurrences levels ++ Target.allOccurrences levels rest

def SortTerm.allOccurrences (levels : Levels) : List SortTerm → List Occurrence
  | [] => []
  | ⟨e, _⟩ :: rest => e.occurrences levels ++ SortTerm.allOccurrences levels rest

/-- The columns a select within a term refers to; its own tables are the innermost level. -/
def Select.occurrences (levels : Levels) : Select → List Occurrence
  | ⟨table, joins, targets, filters, sorting, _, _⟩ =>
    Target.allOccurrences ((table :: joins) :: levels) targets ++
      Expr.allOccurrences ((table :: joins) :: levels) filters ++
      SortTerm.allOccurrences ((table :: joins) :: levels) sorting

end

@[simp] theorem Expr.allOccurrences_eq (levels : Levels) (es : List Expr) :
    Expr.allOccurrences levels es = es.flatMap (Expr.occurrences levels) := by
  induction es with
  | nil => rfl
  | cons e es ih => rw [Expr.allOccurrences, ih, List.flatMap_cons]

@[simp] theorem Target.allOccurrences_eq (levels : Levels) (ts : List Target) :
    Target.allOccurrences levels ts = ts.flatMap fun t => t.expr.occurrences levels := by
  induction ts with
  | nil => rfl
  | cons t ts ih => obtain ⟨_, _, _⟩ := t; rw [Target.allOccurrences, ih, List.flatMap_cons]

@[simp] theorem SortTerm.allOccurrences_eq (levels : Levels) (ts : List SortTerm) :
    SortTerm.allOccurrences levels ts = ts.flatMap fun t => t.expr.occurrences levels := by
  induction ts with
  | nil => rfl
  | cons t ts ih => obtain ⟨_, _⟩ := t; rw [SortTerm.allOccurrences, ih, List.flatMap_cons]

/-- How an occurrence is written. -/
def Occurrence.reference (o : Occurrence) : Reference :=
  ⟨o.levels.map (List.map Table.names), o.owner, o.column.name⟩

theorem conjunction_references (levels : List (List (String × Option String))) (ts : List Tree) :
    Tree.optionReferences levels (Tree.conjunction ts) = ts.flatMap (Tree.references levels) := by
  cases ts with
  | nil => rfl
  | cons t ts =>
    have hfold (acc : Tree) : (ts.foldl (.binary .and) acc).references levels =
        acc.references levels ++ ts.flatMap (Tree.references levels) := by
      induction ts generalizing acc with
      | nil => simp
      | cons t ts ih => simp [ih, Tree.references]
    simpa [Tree.conjunction, Tree.optionReferences] using hfold t

theorem flatMap_reference {α : Type} {items : List α} {f : α → List Reference}
    {g : α → List Occurrence} (h : ∀ i ∈ items, f i = (g i).map Occurrence.reference) :
    items.flatMap f = (items.flatMap g).map Occurrence.reference := by
  rw [List.map_flatMap]
  exact List.flatMap_congr h

/-- The tree of a term refers, within any levels, to the columns of the term as they are written. -/
def Expr.WritesReferences (e : Expr) : Prop :=
  ∀ levels : Levels, (e.tree levels.visible).references (levels.map (List.map Table.names)) =
    (e.occurrences levels).map Occurrence.reference

section Selects

variable {s : Select} (levels : Levels)

/-- The clauses of a query refer to the columns of the clauses it was built from. -/
private theorem query_references {entries : List Item} {occurrences : List Occurrence} {limit : Option Slot}
    (hentries : entries.flatMap (fun i =>
        i.term.references (((s.table :: s.joins) :: levels).map (List.map Table.names))) =
      occurrences.map Occurrence.reference)
    (hs : s.Each Expr.WritesReferences) :
    Query.references (levels.map (List.map Table.names)) ⟨entries, (s.table :: s.joins).map Table.names,
      Tree.conjunction (s.filters.map (Expr.tree (Levels.visible ((s.table :: s.joins) :: levels)))),
      s.sorting.map (fun t =>
        ⟨t.expr.tree (Levels.visible ((s.table :: s.joins) :: levels)), t.order.suffix⟩), s.lock, limit⟩ =
      (occurrences ++ s.filters.flatMap (Expr.occurrences ((s.table :: s.joins) :: levels)) ++
        s.sorting.flatMap fun t => t.expr.occurrences ((s.table :: s.joins) :: levels)).map
          Occurrence.reference := by
  have hcondition := flatMap_reference fun e he => hs.filters e he ((s.table :: s.joins) :: levels)
  have horder := flatMap_reference fun t ht => hs.sorting t ht ((s.table :: s.joins) :: levels)
  rw [List.map_append, List.map_append, ← hcondition, ← horder, ← hentries, Query.references,
    conjunction_references, List.flatMap_map, Item.allReferences_eq, Item.allReferences_eq,
    List.flatMap_map]
  rfl

private theorem nested_references (hs : s.Each Expr.WritesReferences) :
    (s.query levels.visible).references (levels.map (List.map Table.names)) =
      (s.occurrences levels).map Occurrence.reference := by
  obtain ⟨table, joins, targets, filters, sorting, lock, limit⟩ := s
  rw [Select.query, Select.occurrences, Target.items_eq, Expr.trees_eq, SortTerm.items_eq,
    Target.allOccurrences_eq, Expr.allOccurrences_eq, SortTerm.allOccurrences_eq]
  refine query_references levels ?_ hs
  rw [List.flatMap_map]
  exact flatMap_reference fun t ht => hs.targets t ht ((table :: joins) :: levels)

end Selects

theorem Expr.writes_references (e : Expr) : e.WritesReferences := by
  induction e using Expr.induction with
  | column c => exact fun levels => rfl
  | param v type => exact fun levels => rfl
  | default => exact fun levels => rfl
  | bool b => exact fun levels => rfl
  | call function args ih =>
    intro levels
    simp only [tree, trees_eq, Tree.references, Tree.allReferences_eq, occurrences, allOccurrences_eq,
      List.flatMap_map]
    exact flatMap_reference fun e he => ih e he levels
  | binary op left right hl hr =>
    intro levels
    rw [tree, Tree.references, occurrences, List.map_append, hl levels, hr levels]
  | not e ih => exact fun levels => ih levels
  | nullTest e negated ih => exact fun levels => ih levels
  | within e values element ih => exact fun levels => ih levels
  | subquery s ih => exact fun levels => nested_references levels ih
  | existence s ih => exact fun levels => nested_references levels ih

section Outermost

variable {vis : List Column}

/-- Entries with the names of their outputs, counted from `index`. -/
def Target.namedItems (vis : List Column) (index : Nat) : List Target → List Item
  | [] => []
  | t :: rest => ⟨t.expr.tree vis, .named (Scope.outputName index)⟩ :: namedItems vis (index + 1) rest

private theorem namedItems_references {ts : List Target} (levels : Levels) (index : Nat) :
    (Target.namedItems levels.visible index ts).flatMap
        (fun i => i.term.references (levels.map (List.map Table.names))) =
      (ts.flatMap fun t => t.expr.occurrences levels).map Occurrence.reference := by
  induction ts generalizing index with
  | nil => rfl
  | cons t ts ih =>
    rw [Target.namedItems, List.flatMap_cons, List.flatMap_cons, List.map_append, ih]
    exact congrArg (· ++ _) (t.expr.writes_references levels)

private theorem namedItems_read {es : List (Target × Fragment)}
    (h : ∀ e ∈ es, e.1.expr.pieces vis = .ok e.2) (index : Nat) :
    List.Forall₂ (Item.Reads .entry) (Target.namedItems vis index (es.map Prod.fst))
      (namedTexts index (es.map Prod.snd)) := by
  induction es generalizing index with
  | nil => exact .nil
  | cons e es ih =>
    refine .cons ?_ (ih (fun e' he' => h e' (List.mem_cons_of_mem e he')) (index + 1))
    have hread := e.1.expr.reads_as vis e.2 (h e List.mem_cons_self)
    have has : Word.ofText " AS " = [.label] := rfl
    refine ⟨Fragment.words e.2, ?_, hread.reads.looser (Nat.zero_le _), trivial⟩
    simp [namedPieces, Piece.words, has, Word.ofText_outputName, Item.suffix, Suffix.words]

/-- A select at the outermost level: entries left out where their text was written before, the others
named. -/
def Select.outermostQuery (s : Select) : Query :=
  let vis := inSight (s.table :: s.joins) []
  ⟨Target.namedItems vis 0 (Target.written vis s.targets), (s.table :: s.joins).map Table.names,
    Tree.conjunction (s.filters.map (Expr.tree vis)),
    s.sorting.map fun t => ⟨t.expr.tree vis, t.order.suffix⟩, s.lock,
    s.limit.map fun n => .of limitType (.scalar (.int64 n))⟩

/-- The text of a select is read back as the select. -/
theorem Select.listed_reads {s : Select} {l : Listed} (h : s.listed [] = .ok l) :
    ∃ q, readSelect l.1.words = some q ∧ s.outermostQuery.Regroups q := by
  obtain ⟨hnone, list, clauses, hlist, hclauses, rfl⟩ := Select.listed_ok h
  obtain ⟨es, hes, rfl⟩ := map_eq_ok.mp hlist
  have hwritten : Target.written (inSight (s.table :: s.joins) []) s.targets =
      (Target.kept [] es).map Prod.fst := by
    rw [Target.written, hes]
  have hentries := namedItems_read (fun e he =>
    (Target.entries_mem hes (Target.kept_subset [] es he)).2) 0
  have hne : Target.namedItems (inSight (s.table :: s.joins) []) 0
      ((Target.kept [] es).map Prod.fst) ≠ [] := by
    obtain ⟨t, ts, hts⟩ := List.exists_cons_of_ne_nil hnone
    rw [hts, Target.entries_cons] at hes
    obtain ⟨f, -, hes⟩ := bind_eq_ok.mp hes
    obtain ⟨rest, -, hes⟩ := bind_eq_ok.mp hes
    cases hes
    simp [Target.kept, Target.namedItems]
  have hread := Select.clauses_read (.of_all fun e => e.reads_as _) hclauses hne hentries
  obtain ⟨q, hq, hsame⟩ := hread [] (Ends.nil 5)
  rw [List.append_nil, ← listPieces_joined, ← Fragment.words_append] at hq
  refine ⟨q, ?_, by rwa [Select.outermostQuery, hwritten]⟩
  have hselect : Piece.words (.text "SELECT ") = [.selection] := rfl
  simp only [Listed.behind, Listed.before, List.singleton_append, Fragment.words_cons, hselect]
  rw [readSelect, hq]

end Outermost

/-- The columns a select refers to where they are written: entries left out, those of its clauses. -/
def Select.writtenOccurrences (s : Select) : List Occurrence :=
  (Target.written (inSight (s.table :: s.joins) []) s.targets).flatMap
      (fun t => t.expr.occurrences [s.table :: s.joins]) ++
    s.filters.flatMap (Expr.occurrences [s.table :: s.joins]) ++
    s.sorting.flatMap fun t => t.expr.occurrences [s.table :: s.joins]

/-- Each reference in the text of a select means, under the scoping rules of SQL, the column it was built
from, within the tables the text has open there; and it is bare if no other open table has a column of
its name. -/
theorem Select.references_resolve (s : Select) (r : Rendered)
    (h : (Statement.select s).render = .ok r) (hproper : ∀ o ∈ s.writtenOccurrences, o.Proper) :
    ∃ q, readSelect r.body.words = some q ∧
      List.Forall₂ (fun (o : Occurrence) (ref : Reference) =>
        ref.levels = o.levels.map (List.map Table.names) ∧
        (∃ c, resolve o.levels ref.owner ref.name = some c ∧ o.column.same c = true) ∧
        (o.Alone → ref.owner = none)) s.writtenOccurrences (q.references []) := by
  rw [Statement.render_eq] at h
  obtain ⟨l, hl, rfl⟩ := map_eq_ok.mp h
  obtain ⟨q, hread, hsame⟩ := Select.listed_reads hl
  refine ⟨q, hread, ?_⟩
  have hreferences : q.references [] = s.writtenOccurrences.map Occurrence.reference := by
    have hregroup : s.outermostQuery.references [] = q.references [] :=
      (hsame false).references_eq []
    rw [← hregroup]
    exact query_references [] (namedItems_references [s.table :: s.joins] 0)
      (.of_all Expr.writes_references)
  rw [hreferences, List.forall₂_map_right_iff, List.forall₂_same]
  exact fun o ho => ⟨rfl, (hproper o ho).resolves, (hproper o ho).bare⟩

/-- A join whose tables share a column name, and a select within an entry that refers to the outer
tables. -/
theorem Select.references_resolve_correlated :
    let person : Table := .ofColumns "person" [("id", limitType), ("name", limitType)]
    let city : Table := .ofColumns "city" [("name", limitType), ("mayor", limitType)]
    let other : Table := person.aliased "other"
    let inner : Select := ⟨other, [], [⟨"max", .call "max" [.column ⟨"other", "id", limitType⟩], limitType⟩],
      [.binary .lt (.column ⟨"other", "id", limitType⟩) (.column ⟨"city", "mayor", limitType⟩)],
      [], none, none⟩
    let s : Select := ⟨person, [city],
      [⟨"name", .column ⟨"city", "name", limitType⟩, limitType⟩, ⟨"before", .subquery inner, limitType⟩],
      [.binary .eq (.column ⟨"person", "id", limitType⟩) (.column ⟨"city", "mayor", limitType⟩)],
      [], none, none⟩
    ∃ r q, (Statement.select s).render = .ok r ∧ readSelect r.body.words = some q ∧
      List.Forall₂ (fun o ref => ∃ c, resolve o.levels ref.owner ref.name = some c ∧ o.column.same c = true)
        s.writtenOccurrences (q.references []) := by
  intro person city other inner s
  have hrender : ((Statement.select s).render.toOption).isSome = true := by decide +kernel
  obtain ⟨r, hr⟩ : ∃ r, (Statement.select s).render = .ok r := by
    cases hr : (Statement.select s).render with
    | error x => simp [hr, Except.toOption] at hrender
    | ok r => exact ⟨r, rfl⟩
  have hproper : ∀ o ∈ s.writtenOccurrences, o.Proper := by decide +kernel
  obtain ⟨q, hq, hrefs⟩ := Select.references_resolve s r hr hproper
  exact ⟨r, q, hr, hq, hrefs.imp fun o ref h => h.2.1⟩

end TypedSql.Sql

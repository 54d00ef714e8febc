import TypedSql.Proofs.Sql.Sharing
import TypedSql.Proofs.Sql.Whole

/-! The targets of a statement: where it lists them, the texts they are listed with, and the outputs they
are given. -/
namespace TypedSql.Sql

/-- The list of targets whose values a statement gives. -/
def Statement.targets : Statement → List Target
  | .select s => s.targets
  | .insert i => i.returning
  | .update u => u.returning
  | .delete d => d.returning

/-- The tables in sight of the targets. -/
def Statement.tables : Statement → List Table
  | .select s => s.table :: s.joins
  | .insert i => [i.table]
  | .update u => u.table :: u.sources
  | .delete d => d.table :: d.sources

/-- Where a text has the list of targets: in front of the tables of a select, at the end of every other
statement, which need not have one. -/
def Statement.Lists (s : Statement) (list body : Fragment) : Prop :=
  match s with
  | .select _ => ∃ clauses, body = .text "SELECT " :: list ++ .text " FROM " :: clauses
  | s => ∃ clauses, body = clauses ++ if s.targets.isEmpty then [] else .text " RETURNING " :: list

namespace Entry

/-- The targets of a list with the texts they are written with. -/
def ofTexts (es : List (Target × Fragment)) : List Entry := es.mapIdx fun i e => ⟨i, e.1, e.2⟩

theorem ofTexts_places (es : List (Target × Fragment)) :
    (ofTexts es).map place = List.range (ofTexts es).length := by
  refine List.ext_getElem (by simp) fun i _ _ => ?_
  simp [ofTexts]

theorem ofTexts_written (es : List (Target × Fragment)) : (ofTexts es).map written = es := by
  refine List.ext_getElem (by simp [ofTexts]) fun i _ _ => ?_
  simp [ofTexts, written]

theorem placed_of_places (h : es.map place = List.range es.length) : Placed es := by
  have hrange := List.pairwise_lt_range (n := es.length)
  rw [← h] at hrange
  exact List.pairwise_map.mp hrange

end Entry

theorem namedTexts_map {α : Type} (text : α → Fragment) (index : Nat) (as : List α) :
    namedTexts index (as.map text) = as.mapIdx fun k a => namedPieces (text a) (index + k) := by
  induction as generalizing index with
  | nil => rfl
  | cons a as ih => simp [namedTexts, ih, Nat.add_assoc, Nat.add_comm 1]

theorem Target.entries_targets {vis : List Column} {targets : List Target}
    {es : List (Target × Fragment)} (h : Target.entries vis targets = .ok es) :
    es.map Prod.fst = targets := by
  induction targets generalizing es with
  | nil => cases h; rfl
  | cons t ts ih =>
    rw [Target.entries_cons] at h
    obtain ⟨f, -, h⟩ := bind_eq_ok.mp h
    obtain ⟨rest, hrest, h⟩ := bind_eq_ok.mp h
    cases h
    rw [List.map_cons, ih hrest]

private theorem returning_lists {vis : List Column} {targets : List Target} {l : Listed}
    (h : returningPieces vis targets = .ok l) : ∃ list, Target.listed vis targets = .ok list ∧
      l = (if targets.isEmpty then [] else .text " RETURNING " :: list.1, list.2) := by
  unfold returningPieces at h
  cases targets with
  | nil =>
    cases h
    exact ⟨([], []), rfl, rfl⟩
  | cons t ts =>
    obtain ⟨list, hlist, rfl⟩ := map_eq_ok.mp h
    exact ⟨list, hlist, rfl⟩

/-- Every statement has the list of its targets and its outputs. -/
theorem Statement.listed_lists {s : Statement} {l : Listed} (h : s.listed = .ok l) :
    ∃ list, Target.listed (inSight s.tables []) s.targets = .ok list ∧ s.Lists list.1 l.1 ∧
      l.2 = list.2 := by
  cases s with
  | select s =>
    obtain ⟨-, list, clauses, hlist, hclauses, rfl⟩ := Select.listed_ok h
    obtain ⟨filters, sorting, limit, -, -, -, rfl⟩ := Select.clausePieces_ok hclauses
    exact ⟨list, hlist, ⟨_, by simp [Listed.behind, Listed.before]; rfl⟩, rfl⟩
  | insert i =>
    obtain ⟨-, names, rows, conflict, returning, -, -, -, hreturning, rfl⟩ := Insert.listed_ok h
    obtain ⟨list, hlist, rfl⟩ := returning_lists hreturning
    exact ⟨list, hlist, ⟨_, rfl⟩, rfl⟩
  | update u =>
    obtain ⟨-, assignments, sources, filters, returning, -, -, -, hreturning, rfl⟩ := Update.listed_ok h
    obtain ⟨list, hlist, rfl⟩ := returning_lists hreturning
    exact ⟨list, hlist, ⟨_, rfl⟩, rfl⟩
  | delete d =>
    obtain ⟨-, sources, filters, returning, -, -, hreturning, rfl⟩ := Delete.listed_ok h
    obtain ⟨list, hlist, rfl⟩ := returning_lists hreturning
    exact ⟨list, hlist, ⟨_, rfl⟩, rfl⟩

/-- What becomes of the targets of a statement: `es` are the targets in their order, each with its text. -/
structure Statement.Answers (s : Statement) (r : Rendered) (es : List Entry) : Prop where
  targets : es.map Entry.target = s.targets
  places : es.map Entry.place = List.range es.length
  /-- The text of an entry is what its term is rendered to. Whatever outputs are claimed, this claims none,
  neither for the term nor for a select in it. -/
  texts : ∀ e ∈ es, Adds (inSight s.tables []) e.target.expr.render (.ok e.text)
  /-- The statement lists each text once, where it stands first, with names that count from zero. -/
  list : s.Lists (joined ", " ((Entry.firsts es).mapIdx fun k e => namedPieces e.text k)) r.body
  /-- The outputs are those of the list, each with the fields of the entries that have its text. -/
  outputs : r.outputs = (Entry.firsts es).mapIdx (Entry.output es)
  /-- One output has the text of an entry. -/
  first : ∀ e ∈ es, ∃! d, d ∈ Entry.firsts es ∧ d.alike e = true

theorem Statement.answers {s : Statement} {r : Rendered} (h : s.render = .ok r) :
    ∃ es, s.Answers r es := by
  rw [Statement.render_eq] at h
  obtain ⟨l, hl, rfl⟩ := map_eq_ok.mp h
  obtain ⟨list, hlist, hlists, houtputs⟩ := Statement.listed_lists hl
  obtain ⟨es, hes, rfl⟩ := map_eq_ok.mp hlist
  have hplaces := Entry.ofTexts_places es
  have hplaced := Entry.placed_of_places hplaces
  have hwritten := Entry.ofTexts_written es
  refine ⟨Entry.ofTexts es, ?_, hplaces, fun e he => ?_, ?_, ?_, fun e he =>
    Entry.exists_unique_first hplaced he⟩
  · rw [← Target.entries_targets hes, ← hwritten, List.map_map, hwritten]
    rfl
  · have hmem : e.written ∈ es := hwritten ▸ List.mem_map_of_mem he
    have hpieces : e.target.expr.pieces (inSight s.tables []) = .ok e.text :=
      (Target.entries_mem hes hmem).2
    exact hpieces ▸ e.target.expr.render_adds (inSight s.tables [])
  · have htexts := Entry.kept_texts hplaced
    rw [hwritten] at htexts
    simpa only [htexts, listPieces_joined, namedTexts_map, Nat.zero_add] using hlists
  · rw [houtputs, ← Entry.claimAll_outputs hplaced, hwritten]

end TypedSql.Sql

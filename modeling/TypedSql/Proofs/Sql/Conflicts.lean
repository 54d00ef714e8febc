import TypedSql.Proofs.Sql.References

/-! Inserts that update the rows that are there: the proposed row is known within the update alone, and
there every column is written with the table it is of. -/
namespace TypedSql.Sql
open Rendering

/-- The levels around the terms of an update in a conflict clause: the table and the proposed row. -/
def Table.conflictLevels (t : Table) : Levels := [[t, t.excluded]]

/-- The columns in sight of such an update. -/
def Table.inConflict (t : Table) : List Column := inSight [t.excluded] (inSight [t] [])

section Qualification

variable {t : Table} {c : Column}

theorem Table.conflictLevels_visible (t : Table) : t.conflictLevels.visible = t.inConflict := by
  simp [conflictLevels, inConflict, Levels.visible, inSight]

theorem Table.mem_inConflict : c ∈ t.inConflict ↔ ∃ name type, (name, type) ∈ t.members ∧
    (c = ⟨Column.excludedName, name, type⟩ ∨ c = ⟨t.sqlName, name, type⟩) := by
  have hexcluded : t.excluded.sqlName = Column.excludedName := rfl
  have hmembers : t.excluded.members = t.members := rfl
  simp only [inConflict, mem_inSight, List.mem_singleton, exists_eq_left, List.not_mem_nil, or_false,
    columns, hexcluded, hmembers, List.mem_map, Prod.exists, @eq_comm _ _ c, ← exists_or, ← and_or_left]

/-- The proposed row has the columns of the table, so that no column of either is known by its name. -/
theorem Table.qualifies_inConflict (hname : t.sqlName ≠ Column.excludedName)
    (hc : c.owner = t.sqlName ∨ c.owner = Column.excludedName) :
    (Scope.mk t.inConflict []).needsQualification c = true := by
  by_contra h
  obtain ⟨hvisible, halone⟩ : Scope.isVisible ⟨t.inConflict, []⟩ c = true ∧
      ∀ d ∈ t.inConflict, d.name = c.name → c.same d = true := by
    simpa [Scope.needsQualification] using h
  obtain ⟨d, hd, hsame⟩ := List.any_eq_true.mp hvisible
  obtain ⟨name, type, hmember, hd⟩ := mem_inConflict.mp hd
  obtain ⟨-, hcname⟩ : c.owner = d.owner ∧ c.name = d.name := by simpa [Column.same] using hsame
  replace hcname : c.name = name := by rcases hd with rfl | rfl <;> exact hcname
  -- the other table has a column of this name too, and it is not the same
  rcases hc with howner | howner
  · have hother := halone ⟨Column.excludedName, name, type⟩
      (mem_inConflict.mpr ⟨name, type, hmember, .inl rfl⟩) hcname.symm
    simp [Column.same, howner, hname] at hother
  · have hother := halone ⟨t.sqlName, name, type⟩
      (mem_inConflict.mpr ⟨name, type, hmember, .inr rfl⟩) hcname.symm
    simp [Column.same, howner, hname.symm] at hother

/-- A column of the table or of the proposed row is written behind its owner. -/
theorem Table.renders_qualified (hname : t.sqlName ≠ Column.excludedName)
    (hc : c.owner = t.sqlName ∨ c.owner = Column.excludedName) :
    Adds t.inConflict c.render (.ok [.name c.owner, .text ".", .name c.name]) := by
  have h := c.render_adds t.inConflict
  rwa [Column.pieces, if_pos (qualifies_inConflict hname hc)] at h

end Qualification

section Terms

variable {t : Table} {f : Fragment}

/-- A reference as the update of a conflict clause has it for a column: by name, within the tables that
are open there. Outside of selects in the clause, columns of the table and of the proposed row are
qualified. -/
structure ConflictReference (t : Table) (o : Occurrence) (ref : Reference) : Prop where
  name : ref.name = o.column.name
  levels : ref.levels = o.levels.map (List.map Table.names)
  qualified : o.levels = t.conflictLevels →
    o.column.owner = t.sqlName ∨ o.column.owner = Column.excludedName → ref.owner = some o.column.owner

/-- A text that is read as a term with a reference for each of some columns, in their order. -/
def Table.ReadsWith (t : Table) (occurrences : List Occurrence) (f : Fragment) : Prop :=
  ∃ tree, readTerm f.words = some tree ∧ List.Forall₂ (ConflictReference t) occurrences
    (tree.references (t.conflictLevels.map (List.map Table.names)))

theorem Occurrence.conflictReference (hname : t.sqlName ≠ Column.excludedName) (o : Occurrence) :
    ConflictReference t o o.reference := by
  refine ⟨rfl, rfl, fun hlevels howner => ?_⟩
  have hqualifies := Table.qualifies_inConflict hname howner
  rw [← Table.conflictLevels_visible, ← hlevels] at hqualifies
  rw [reference, owner, if_pos hqualifies]

private theorem Table.readsWith_of_reads (hname : t.sqlName ≠ Column.excludedName) {tree : Tree}
    {occurrences : List Occurrence} (hread : Reads .disjunction tree f.words)
    (hrefs : tree.references (t.conflictLevels.map (List.map Table.names)) =
      occurrences.map Occurrence.reference) : t.ReadsWith occurrences f := by
  obtain ⟨tree', htree', hsame⟩ := hread.readTerm
  refine ⟨tree', htree', ?_⟩
  rw [← hsame.references_eq, hrefs, List.forall₂_map_right_iff, List.forall₂_same]
  exact fun o _ => o.conflictReference hname

/-- A term in the update is read with references for its columns. -/
theorem Expr.readsWith (hname : t.sqlName ≠ Column.excludedName) {e : Expr}
    (h : e.pieces t.inConflict = .ok f) : t.ReadsWith (e.occurrences t.conflictLevels) f := by
  have hrefs := e.writes_references t.conflictLevels
  rw [Table.conflictLevels_visible] at hrefs
  exact Table.readsWith_of_reads hname ((e.reads_as _ f h).reads.looser (Nat.zero_le _)) hrefs

/-- The condition of the update is read with references for the columns of its filters. -/
theorem filters_readsWith (hname : t.sqlName ≠ Column.excludedName) {filters : List Expr}
    (hne : filters ≠ []) (h : filtersPieces t.inConflict filters = .ok f) :
    ∃ g, f = .text " WHERE " :: g ∧ t.ReadsWith (filters.flatMap (Expr.occurrences t.conflictLevels)) g := by
  obtain ⟨e, es, rfl⟩ := List.exists_cons_of_ne_nil hne
  obtain ⟨g, rfl, hread⟩ := filters_read (fun e' _ => e'.reads_as t.inConflict) h
  refine ⟨g, rfl, Table.readsWith_of_reads hname hread ?_⟩
  have hconjunction := conjunction_references (t.conflictLevels.map (List.map Table.names))
    ((e :: es).map (Expr.tree t.inConflict))
  rw [List.flatMap_map] at hconjunction
  refine hconjunction.trans (flatMap_reference fun e' _ => ?_)
  rw [← Table.conflictLevels_visible]
  exact e'.writes_references t.conflictLevels

end Terms

section Clauses

variable {t : Table} {target : List Column} {assignments : List Assignment} {filters : List Expr}

/-- The text of a conflict clause that updates: the columns of its index, the columns it sets, each to a
term, and its condition. -/
def Table.UpdatesWith (t : Table) (target : List Column) (assignments : List Assignment)
    (filters : List Expr) (clause : Fragment) : Prop :=
  ∃ keys sets condition, clause = .text " ON CONFLICT" :: .text " (" :: keys ++ .text ")" ::
      .text " DO UPDATE SET " :: joined ", " sets ++ condition ∧
    Adds (inSight [t] []) (renderNames target) (.ok keys) ∧
    List.Forall₂ (fun a s => ∃ f, s = .name a.column.name :: .text " = " :: f ∧
      Adds t.inConflict a.expr.render (.ok f) ∧ t.ReadsWith (a.expr.occurrences t.conflictLevels) f)
      assignments sets ∧
    Adds t.inConflict (renderFilters filters) (.ok condition) ∧
    (filters ≠ [] → ∃ g, condition = .text " WHERE " :: g ∧
      t.ReadsWith (filters.flatMap (Expr.occurrences t.conflictLevels)) g)

private theorem assignments_update (hname : t.sqlName ≠ Column.excludedName) {f : Fragment}
    (h : assignmentsPieces t.inConflict assignments = .ok f) :
    ∃ sets, List.Forall₂ (fun a s => ∃ g, s = .name a.column.name :: .text " = " :: g ∧
      Adds t.inConflict a.expr.render (.ok g) ∧ t.ReadsWith (a.expr.occurrences t.conflictLevels) g)
      assignments sets ∧ f = joined ", " sets := by
  refine separatedPieces_ok h fun a _ s hs => ?_
  obtain ⟨g, hg, rfl⟩ := map_eq_ok.mp hs
  exact ⟨g, rfl, hg ▸ a.expr.render_adds t.inConflict, Expr.readsWith hname hg⟩

/-- A clause that updates and is rendered names its columns and has its terms read as they were meant. -/
theorem OnConflict.update_pieces (hname : t.sqlName ≠ Column.excludedName) {clause : Fragment}
    (h : OnConflict.pieces (inSight [t] []) t ⟨target, .update assignments filters⟩ = .ok clause) :
    t.UpdatesWith target assignments filters clause := by
  obtain ⟨hcheck, keys, action, hkeys, haction, rfl⟩ := OnConflict.pieces_ok h
  obtain ⟨f, hf, haction⟩ := bind_eq_ok.mp haction
  obtain ⟨condition, hcondition, haction⟩ := bind_eq_ok.mp haction
  cases haction
  cases target with
  | nil => cases hcheck
  | cons c cs =>
    obtain ⟨names, hnames, rfl⟩ := map_eq_ok.mp hkeys
    obtain ⟨sets, hsets, rfl⟩ := assignments_update hname hf
    refine ⟨names, sets, condition, by simp, hnames ▸ names_adds (c :: cs), hsets, ?_, fun hne => ?_⟩
    · exact hcondition ▸ filters_adds filters
    · exact filters_readsWith hname hne hcondition

end Clauses

/-- The parts of an insert that stand around its conflict clause, and the outputs it claims. -/
structure InsertParts where
  columns : Fragment
  rows : Fragment
  returning : Fragment
  outputs : List (Fragment × Output)

/-- The text of an insert, a conflict clause between its rows and what it returns. -/
def InsertParts.body (p : InsertParts) (t : Table) (clause : Fragment) : Fragment :=
  .text "INSERT INTO " :: t.pieces ++ .text "(" :: p.columns ++ .text ") VALUES " :: p.rows ++ clause ++
    p.returning

/-- The parts of an insert are what is written while its table, and nothing else, is in sight. -/
structure Insert.Writes (i : Insert) (p : InsertParts) : Prop where
  columns : Adds (inSight [i.table] []) (renderNames i.columns) (.ok p.columns)
  rows : Adds (inSight [i.table] []) (separated ", " (renderRow i.columns) i.rows) (.ok p.rows)
  returning : Yields (inSight [i.table] []) (renderReturning i.returning) (.ok (p.returning, p.outputs))

/-- An insert consists of its parts and of its conflict clause, and the parts are those of the insert
without the clause. -/
theorem Insert.render_parts {i : Insert} {r : Rendered} (h : (Statement.insert i).render = .ok r) :
    ∃ p clause, i.Writes p ∧ conflictPieces (inSight [i.table] []) i.table i.conflict = .ok clause ∧
      r = ⟨.insert, p.body i.table clause, p.outputs.map Prod.snd⟩ ∧
      (Statement.insert { i with conflict := none }).render =
        .ok ⟨.insert, p.body i.table [], p.outputs.map Prod.snd⟩ := by
  rw [Statement.render_eq] at h
  obtain ⟨l, hl, rfl⟩ := map_eq_ok.mp h
  obtain ⟨hcheck, columns, rows, clause, ⟨returning, outputs⟩, hcolumns, hrows, hclause, hreturning, rfl⟩ :=
    Insert.listed_ok hl
  let p : InsertParts := ⟨columns, rows, returning, outputs⟩
  refine ⟨p, clause, ⟨?_, ?_, ?_⟩, hclause, rfl, ?_⟩
  · exact hcolumns ▸ names_adds i.columns
  · exact hrows ▸ Adds.separated ", " fun row _ => row_adds i.columns row
  · exact hreturning ▸ returning_yields i.returning
  · rw [Statement.render_eq]
    refine map_eq_ok.mpr ⟨((p.body i.table []), outputs), ?_, rfl⟩
    exact bind_eq_ok.mpr ⟨(), hcheck, bind_eq_ok.mpr ⟨columns, hcolumns, bind_eq_ok.mpr ⟨rows, hrows,
      bind_eq_ok.mpr ⟨[], rfl, bind_eq_ok.mpr ⟨_, hreturning, rfl⟩⟩⟩⟩⟩

/-- A conflict clause that updates changes nothing in the rest of an insert, and within its update each
column of the table or of the proposed row is written behind its owner, to any depth outside of selects. -/
theorem Insert.conflict_contained {i : Insert} {target : List Column} {assignments : List Assignment}
    {filters : List Expr} {r : Rendered} (hconflict : i.conflict = some ⟨target, .update assignments filters⟩)
    (hname : i.table.sqlName ≠ Column.excludedName) (h : (Statement.insert i).render = .ok r) :
    (∃ p clause, i.Writes p ∧ r = ⟨.insert, p.body i.table clause, p.outputs.map Prod.snd⟩ ∧
      (Statement.insert { i with conflict := none }).render =
        .ok ⟨.insert, p.body i.table [], p.outputs.map Prod.snd⟩ ∧
      i.table.UpdatesWith target assignments filters clause) ∧
    ∀ c : Column, c.owner = i.table.sqlName ∨ c.owner = Column.excludedName →
      Adds i.table.inConflict c.render (.ok [.name c.owner, .text ".", .name c.name]) := by
  obtain ⟨p, clause, hwrites, hclause, hr, hplain⟩ := Insert.render_parts h
  rw [hconflict] at hclause
  exact ⟨⟨p, clause, hwrites, hr, hplain, OnConflict.update_pieces hname hclause⟩,
    fun c hc => Table.renders_qualified hname hc⟩

/-- Hits of a page added to those counted before, both columns in a function and in a condition, and a
select over the same table beside them. -/
theorem Insert.conflict_contained_hits :
    let pages : Table := .ofColumns "pages" [("id", limitType), ("hits", limitType)]
    let hits : Expr := .column ⟨"pages", "hits", limitType⟩
    let proposed : Expr := .column ⟨Column.excludedName, "hits", limitType⟩
    let most : Select := ⟨pages.aliased "other", [],
      [⟨"most", .call "max" [.column ⟨"other", "hits", limitType⟩], limitType⟩], [], [], none, none⟩
    let assignments : List Assignment := [⟨⟨"pages", "hits", limitType⟩,
      .binary .plus (.call "greatest" [hits, proposed]) (.subquery most)⟩]
    let target : List Column := [⟨"pages", "id", limitType⟩]
    let filters : List Expr := [.binary .lt hits proposed]
    let i : Insert := ⟨pages, [[⟨⟨"pages", "id", limitType⟩, .param (.scalar (.int64 1)) limitType⟩]],
      some ⟨target, .update assignments filters⟩, [⟨"hits", hits, limitType⟩]⟩
    let sql := "INSERT INTO pages(id) VALUES (?) ON CONFLICT (id) DO UPDATE SET " ++
      "hits = greatest(pages.hits, excluded.hits) + (SELECT max(other.hits) FROM pages AS other) " ++
      "WHERE pages.hits < excluded.hits RETURNING hits AS _0"
    pages.sqlName ≠ Column.excludedName ∧ ∃ (r : Rendered) (p : InsertParts) (clause : Fragment),
      (Statement.insert i).render = .ok r ∧ r.sql = sql ∧ i.Writes p ∧ r.body = p.body pages clause ∧
        pages.UpdatesWith target assignments filters clause := by
  intro pages hits proposed most assignments target filters i sql
  have hname : pages.sqlName ≠ Column.excludedName := by decide
  have hsql : (Statement.insert i).render.toOption.map Rendered.sql = some sql := by
    decide +kernel +revert
  obtain ⟨r, hr⟩ : ∃ r, (Statement.insert i).render = .ok r := ⟨_, rfl⟩
  rw [hr] at hsql
  obtain ⟨⟨p, clause, hwrites, rfl, -, hupdates⟩, -⟩ := Insert.conflict_contained rfl hname hr
  exact ⟨hname, _, p, clause, hr, Option.some.inj hsql, hwrites, rfl, hupdates⟩

end TypedSql.Sql

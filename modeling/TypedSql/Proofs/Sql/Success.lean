import TypedSql.Proofs.Sql.WellFormed
import TypedSql.Proofs.Sql.Whole
import Mathlib.Data.List.Nodup

/-! Statements are rendered exactly if they are well formed. -/
namespace TypedSql.Sql

section Clauses

variable {vis : List Column}

theorem separatedPieces_succeeds {separator : String} {parts : List (Except Error Fragment)} :
    (∃ f, separatedPieces separator parts = .ok f) ↔ ∀ part ∈ parts, ∃ f, part = .ok f := by
  induction parts with
  | nil => simp [separatedPieces]
  | cons part rest ih =>
    cases rest with
    | nil => simp [separatedPieces]
    | cons next rest =>
      rw [List.forall_mem_cons, ← ih]
      simp [separatedPieces, bind_succeeds, map_succeeds]

/-- Items can all be written if each of them can. -/
private theorem each_succeeds {α : Type} {pieces : α → Except Error Fragment} {P : α → Prop}
    {items : List α} (h : ∀ i ∈ items, (∃ f, pieces i = .ok f) ↔ P i) :
    (∀ part ∈ items.map pieces, ∃ f, part = .ok f) ↔ ∀ i ∈ items, P i := by
  rw [List.forall_mem_map]
  exact forall₂_congr h

private theorem bindPieces_succeeds {type : TypeRef} {v : Value} :
    (∃ f, bindPieces type v = .ok f) ↔ Encodes type v := map_succeeds

private theorem wherePieces_succeeds {filters : List (Except Error Fragment)} :
    (∃ f, wherePieces filters = .ok f) ↔ ∀ part ∈ filters, ∃ f, part = .ok f := by
  cases filters with
  | nil => simp [wherePieces]
  | cons part rest => exact map_succeeds.trans separatedPieces_succeeds

private theorem orderPieces_succeeds {sorting : List (Except Error Fragment)} :
    (∃ f, orderPieces sorting = .ok f) ↔ ∀ part ∈ sorting, ∃ f, part = .ok f := by
  cases sorting with
  | nil => simp [orderPieces]
  | cons part rest => exact map_succeeds.trans separatedPieces_succeeds

private theorem tablesPieces_succeeds (tables : List Table) :
    ∃ f, separatedPieces ", " (tables.map fun t => .ok t.pieces) = .ok f := by
  simp [separatedPieces_succeeds]

/-- A limit has a form in its type. -/
private theorem limitPieces_succeeds (limit : Option Int64) : ∃ f, limitPieces limit = .ok f := by
  cases limit with
  | none => exact ⟨_, rfl⟩
  | some n => exact ⟨_, rfl⟩

/-- A select passes its check exactly if it is admissible. -/
theorem Select.check_succeeds {s : Select} :
    (∃ u, Select.check s.targets s.limit = .ok u) ↔ s.Admissible := by
  have hlimit (n : Int64) : n < 0 ↔ n.toInt < 0 := Int64.lt_iff_toInt_lt
  obtain ⟨table, joins, targets, filters, sorting, lock, limit⟩ := s
  constructor
  · rintro ⟨u, h⟩
    refine ⟨ne_nil_of_check h, ?_⟩
    rintro n rfl
    by_contra hneg
    have hneg : n < 0 := (hlimit n).mpr (by omega)
    cases targets <;> simp [Select.check, hneg] at h
  · rintro ⟨htargets, hnonneg⟩
    cases targets with
    | nil => exact absurd rfl htargets
    | cons t ts =>
      cases limit with
      | none => exact ⟨(), rfl⟩
      | some n =>
        have hn : 0 ≤ n.toInt := hnonneg n rfl
        exact ⟨(), if_neg fun hneg => absurd ((hlimit n).mp hneg) (by omega)⟩

private theorem clausePieces_succeeds {s : Select}
    (hs : s.Each fun e => (∃ f, e.pieces vis = .ok f) ↔ e.WellFormed) :
    (∃ f, s.clausePieces vis = .ok f) ↔
      (∀ e ∈ s.filters, e.WellFormed) ∧ ∀ t ∈ s.sorting, t.expr.WellFormed := by
  have hfilters : (∃ f, wherePieces (s.filters.map (Expr.conjunctPieces vis)) = .ok f) ↔
      ∀ e ∈ s.filters, e.WellFormed :=
    wherePieces_succeeds.trans (each_succeeds fun e he => map_succeeds.trans (hs.filters e he))
  have hsorting : (∃ f, orderPieces (s.sorting.map (SortTerm.pieces vis)) = .ok f) ↔
      ∀ t ∈ s.sorting, t.expr.WellFormed :=
    orderPieces_succeeds.trans (each_succeeds fun t ht => map_succeeds.trans (hs.sorting t ht))
  rw [← hfilters, ← hsorting]
  obtain ⟨source, hsource⟩ := tablesPieces_succeeds (s.table :: s.joins)
  obtain ⟨limit, hlimit⟩ := limitPieces_succeeds s.limit
  simp only [Select.clausePieces, clausePieces, fromPieces, hsource, hlimit, ok_map, ok_bind, bind_succeeds,
    pure_succeeds, and_true, exists_and_right]

private theorem Select.pieces_succeeds {s : Select}
    (hs : s.Each fun e => ∀ vis, (∃ f, e.pieces vis = .ok f) ↔ e.WellFormed) (vis : List Column) :
    (∃ f, s.pieces vis = .ok f) ↔ s.Admissible ∧ ∀ e ∈ s.terms, e.WellFormed := by
  have hinner := hs.imp fun e he => he (inSight (s.table :: s.joins) vis)
  have htargets : (∃ f, separatedPieces ", "
      (s.targets.map fun t => t.expr.pieces (inSight (s.table :: s.joins) vis)) = .ok f) ↔
      ∀ t ∈ s.targets, t.expr.WellFormed :=
    separatedPieces_succeeds.trans (each_succeeds hinner.targets)
  have hclauses := clausePieces_succeeds hinner
  rw [← check_succeeds, forall_terms, ← hclauses, ← htargets]
  obtain ⟨table, joins, targets, filters, sorting, lock, limit⟩ := s
  simp only [pieces, Target.each_eq, Expr.eachConjunct_eq, SortTerm.each_eq, bind_succeeds, pure_succeeds,
    and_true, exists_and_right]
  rfl

end Clauses

/-- A term can be written exactly if it is well formed, whatever is in sight. -/
theorem Expr.pieces_succeeds (e : Expr) (vis : List Column) :
    (∃ f, e.pieces vis = .ok f) ↔ e.WellFormed := by
  induction e using Expr.induction generalizing vis with
  | column c =>
    rw [wellFormed_iff]
    simp [pieces, Admissible, children]
  | param v type =>
    rw [wellFormed_iff]
    simp [pieces, Admissible, children, bindPieces_succeeds]
  | default =>
    rw [wellFormed_iff]
    simp [pieces, Admissible, children]
  | bool b =>
    rw [wellFormed_iff]
    simp [pieces, Admissible, children]
  | call function args ih =>
    have hargs : (∃ f, separatedPieces ", " (args.map (Expr.pieces vis)) = .ok f) ↔
        ∀ e ∈ args, e.WellFormed :=
      separatedPieces_succeeds.trans (each_succeeds fun e he => ih e he vis)
    rw [wellFormed_iff]
    simp [pieces, Admissible, children, map_succeeds, hargs]
  | binary op left right hl hr =>
    rw [wellFormed_iff]
    simp [pieces, Admissible, children, bind_succeeds, map_succeeds, hl vis, hr vis]
  | not e ih =>
    rw [wellFormed_iff]
    simp [pieces, Admissible, children, map_succeeds, ih vis]
  | nullTest e negated ih =>
    rw [wellFormed_iff]
    simp [pieces, Admissible, children, map_succeeds, ih vis]
  | within e values element ih =>
    rw [wellFormed_iff, pieces, Admissible, children, List.forall_mem_singleton, ← ih vis]
    cases element.arrayOf? with
    | none => simp
    | some array =>
      simp [bind_succeeds, map_succeeds, bindPieces_succeeds, and_comm]
  | subquery s ih =>
    rw [wellFormed_iff, Admissible, children, ← Select.pieces_succeeds ih vis]
    simp [pieces, map_succeeds]
  | existence s ih =>
    rw [wellFormed_iff, Admissible, children, ← Select.pieces_succeeds ih vis]
    simp [pieces, map_succeeds]

section Checks

variable {t : Table} {columns : List Column}

theorem Table.owns_iff {c : Column} : t.owns c = true ↔ t.Has c := by
  simp only [owns, Table.columns, List.any_map, List.any_eq_true, Function.comp_apply, Column.same,
    Bool.and_eq_true, decide_eq_true_eq, Has, List.mem_map]
  constructor
  · rintro ⟨m, hm, howner, hname⟩
    exact ⟨howner, m, hm, hname.symm⟩
  · rintro ⟨howner, m, hm, hname⟩
    exact ⟨m, hm, howner, hname.symm⟩

private theorem checkOwned_succeeds (clause : Clause) :
    (∃ u, checkOwned t clause columns = .ok u) ↔ ∀ c ∈ columns, t.Has c := by
  induction columns with
  | nil => simp [checkOwned]
  | cons c rest ih =>
    rw [List.forall_mem_cons, ← ih, checkOwned, ← Table.owns_iff]
    cases t.owns c <;> simp

/-- Among columns of one table those with the same name are the same. -/
private theorem checkDistinct_succeeds (clause : Clause) {seen : List Column}
    (howned : ∀ c ∈ seen ++ columns, t.Has c) :
    (∃ u, checkDistinct clause seen columns = .ok u) ↔
      (columns.map Column.name).Nodup ∧ ∀ c ∈ columns, c.name ∉ seen.map Column.name := by
  induction columns generalizing seen with
  | nil => simp [checkDistinct]
  | cons c rest ih =>
    have hsame : seen.any c.same = true ↔ c.name ∈ seen.map Column.name := by
      rw [List.any_eq_true, List.mem_map]
      refine exists_congr fun d => and_congr_right fun hd => ?_
      have howner := (howned c (by simp)).1.trans (howned d (by simp [hd])).1.symm
      simp [Column.same, howner, eq_comm]
    have hrest : ∀ d ∈ c :: seen ++ rest, t.Has d := fun d hd => howned d (by simpa [or_left_comm] using hd)
    rw [checkDistinct, List.map_cons, List.nodup_cons, List.forall_mem_cons, ← hsame]
    cases seen.any c.same with
    | true => simp
    | false =>
      rw [if_neg Bool.false_ne_true, ih hrest]
      grind

private theorem checkColumns_succeeds (clause clause' : Clause) :
    (∃ u, (do checkOwned t clause columns; checkDistinct clause' [] columns) = .ok u) ↔
      t.Settable columns := by
  rw [bind_succeeds]
  constructor
  · rintro ⟨u, hu, hdistinct⟩
    have howned := (checkOwned_succeeds clause).mp ⟨u, hu⟩
    exact ⟨howned, ((checkDistinct_succeeds clause' howned).mp hdistinct).1⟩
  · rintro ⟨howned, hdistinct⟩
    obtain ⟨u, hu⟩ := (checkOwned_succeeds clause).mpr howned
    exact ⟨u, hu, (checkDistinct_succeeds clause' howned).mpr ⟨hdistinct, by simp⟩⟩

theorem checkRows_succeeds {rows : List (List Assignment)} :
    (∃ u, checkRows t rows = .ok u) ↔ ∀ row ∈ rows, t.Settable (row.map Assignment.column) := by
  induction rows with
  | nil => simp [checkRows]
  | cons row rest ih =>
    rw [List.forall_mem_cons, ← ih, checkRows, ← bind_assoc, bind_succeeds, exists_and_right,
      checkColumns_succeeds]

end Checks

section Parts

variable {vis : List Column} {t : Table}

private theorem namesPieces_succeeds (columns : List Column) : ∃ f, namesPieces columns = .ok f :=
  ⟨_, namesPieces_eq columns⟩

private theorem sourcesPieces_succeeds (word : String) (sources : List Table) :
    ∃ f, sourcesPieces word sources = .ok f := by
  cases sources with
  | nil => exact ⟨_, rfl⟩
  | cons t ts => exact map_succeeds.mpr (tablesPieces_succeeds (t :: ts))

private theorem assignmentsPieces_succeeds {assignments : List Assignment} :
    (∃ f, assignmentsPieces vis assignments = .ok f) ↔ ∀ a ∈ assignments, a.expr.WellFormed :=
  separatedPieces_succeeds.trans (each_succeeds fun a _ => map_succeeds.trans (a.expr.pieces_succeeds vis))

private theorem filtersPieces_succeeds {filters : List Expr} :
    (∃ f, filtersPieces vis filters = .ok f) ↔ ∀ e ∈ filters, e.WellFormed :=
  wherePieces_succeeds.trans (each_succeeds fun e _ => map_succeeds.trans (e.pieces_succeeds vis))

private theorem Target.listed_succeeds (vis : List Column) {targets : List Target} :
    (∃ l, Target.listed vis targets = .ok l) ↔ ∀ t ∈ targets, t.expr.WellFormed := by
  rw [listed, map_succeeds, entries, mapM_succeeds]
  exact forall₂_congr fun t _ => map_succeeds.trans (t.expr.pieces_succeeds vis)

private theorem returningPieces_succeeds (vis : List Column) {targets : List Target} :
    (∃ l, returningPieces vis targets = .ok l) ↔ ∀ t ∈ targets, t.expr.WellFormed := by
  rw [← Target.listed_succeeds vis]
  cases targets with
  | nil => exact ⟨fun _ => ⟨_, rfl⟩, fun _ => ⟨_, rfl⟩⟩
  | cons t ts => exact map_succeeds

private theorem conflictCheck_succeeds {c : OnConflict} (howned : ∀ column ∈ c.target, t.Has column) :
    (∃ u, c.check t = .ok u) ↔ c.Admissible t := by
  obtain ⟨target, action⟩ := c
  cases action with
  | nothing => exact ⟨fun _ => ⟨howned, nofun⟩, fun _ => ⟨(), rfl⟩⟩
  | update assignments filters =>
    have hcolumns : _ ↔ t.Settable (assignments.map Assignment.column) :=
      checkColumns_succeeds .doUpdate .doUpdate
    constructor
    · intro h
      refine ⟨howned, ?_⟩
      rintro _ _ ⟨⟩
      cases target with
      | nil => simp [OnConflict.check] at h
      | cons column target =>
        cases assignments with
        | nil => simp [OnConflict.check] at h
        | cons a assignments => exact ⟨by simp, by simp, hcolumns.mp h⟩
    · rintro ⟨-, h⟩
      obtain ⟨htarget, hassignments, hsettable⟩ := h assignments filters rfl
      rw [OnConflict.check]
      simpa [htarget, hassignments] using hcolumns.mpr hsettable

private theorem actionPieces_succeeds {c : OnConflict} :
    (∃ f, c.action.pieces vis t = .ok f) ↔ ∀ e ∈ c.terms, e.WellFormed := by
  obtain ⟨target, action⟩ := c
  cases action with
  | nothing => exact ⟨fun _ => nofun, fun _ => ⟨_, rfl⟩⟩
  | update assignments filters =>
    rw [OnConflict.terms, List.forall_mem_append, List.forall_mem_map]
    simp [ConflictAction.pieces, bind_succeeds, map_succeeds, assignmentsPieces_succeeds,
      filtersPieces_succeeds]

private theorem conflictPieces_succeeds {conflict : Option OnConflict} :
    (∃ f, conflictPieces vis t conflict = .ok f) ↔ (∀ c ∈ conflict, c.Admissible t) ∧
      ∀ e ∈ (conflict.map OnConflict.terms).getD [], e.WellFormed := by
  cases conflict with
  | none => simp [conflictPieces]
  | some c =>
    have htarget : ∃ f, c.targetPieces = .ok f := by
      unfold OnConflict.targetPieces
      split
      · exact ⟨_, rfl⟩
      · exact map_succeeds.mpr (namesPieces_succeeds c.target)
    have hcheck : (∃ u, checkOwned t .onConflict c.target = .ok u) ∧ (∃ u, c.check t = .ok u) ↔
        c.Admissible t := by
      rw [checkOwned_succeeds]
      exact ⟨fun h => (conflictCheck_succeeds h.1).mp h.2,
        fun h => ⟨h.target, (conflictCheck_succeeds h.target).mpr h⟩⟩
    obtain ⟨f, hf⟩ := htarget
    simp [conflictPieces, OnConflict.pieces, bind_succeeds, map_succeeds, hf, actionPieces_succeeds,
      ← and_assoc, hcheck]

end Parts

section Rows

variable {i : Insert}

private theorem column_of_has {t : Table} {c : Column} (h : t.Has c) :
    ∃ column ∈ t.columns, c.same column = true :=
  List.any_eq_true.mp (Table.owns_iff.mpr h)

/-- In a row whose columns can be set together, every assignment is found by its column. -/
private theorem find?_of_settable {t : Table} {row : List Assignment} {a : Assignment} {c : Column}
    (h : t.Settable (row.map Assignment.column)) (ha : a ∈ row) (hc : a.column.same c = true) :
    Assignment.find? row c = some a.expr := by
  have hsame (a b : Column) : a.same b = true → a.name = b.name := by
    simp only [Column.same, Bool.and_eq_true, decide_eq_true_eq]
    exact And.right
  obtain ⟨b, hb⟩ : ∃ b, (row.find? fun a => a.column.same c) = some b :=
    Option.isSome_iff_exists.mp (List.find?_isSome.mpr ⟨a, ha, hc⟩)
  have hnames : (row.map fun a => a.column.name).Nodup := by
    simpa only [List.map_map, Function.comp_def] using h.distinct
  have hbc : b.column.same c = true := by simpa using List.find?_some hb
  have hname := (hsame _ _ hc).trans (hsame _ _ hbc).symm
  rw [List.inj_on_of_nodup_map hnames ha (List.mem_of_find?_eq_some hb) hname, Assignment.find?, hb,
    Option.map_some]

private theorem mem_columns {row : List Assignment} {a : Assignment} {c : Column}
    (hrow : row ∈ i.rows) (ha : a ∈ row) (hmem : c ∈ i.table.columns) (hc : a.column.same c = true) :
    c ∈ i.columns := by
  refine List.mem_filter.mpr ⟨hmem, List.any_eq_true.mpr ⟨row, hrow, ?_⟩⟩
  rw [Assignment.find?, Option.isSome_map, List.find?_isSome]
  exact ⟨a, ha, hc⟩

/-- All terms of the rows are written, and besides them only defaults. -/
private theorem rowsPieces_succeeds {vis : List Column}
    (hrows : ∀ row ∈ i.rows, i.table.Settable (row.map Assignment.column)) :
    (∃ f, separatedPieces ", " (i.rows.map (rowPieces vis i.columns)) = .ok f) ↔
      ∀ row ∈ i.rows, ∀ a ∈ row, a.expr.WellFormed := by
  rw [separatedPieces_succeeds, List.forall_mem_map]
  refine forall₂_congr fun row hrow => ?_
  rw [rowPieces, map_succeeds, separatedPieces_succeeds, List.forall_mem_map]
  constructor
  · intro h a ha
    obtain ⟨c, hmem, hc⟩ := column_of_has ((hrows row hrow).owned a.column (List.mem_map_of_mem ha))
    have hpieces := h c (mem_columns hrow ha hmem hc)
    rwa [find?_of_settable (hrows row hrow) ha hc, Option.getD_some, Expr.pieces_succeeds] at hpieces
  · intro h c _
    rw [Expr.pieces_succeeds]
    cases hfind : row.find? fun a => a.column.same c with
    | none =>
      rw [Assignment.find?, hfind]
      exact (Expr.default.pieces_succeeds vis).mp ⟨_, rfl⟩
    | some a =>
      rw [Assignment.find?, hfind]
      exact h a (List.mem_of_find?_eq_some hfind)

private theorem columns_ne_nil (hrows : ∀ row ∈ i.rows, i.table.Settable (row.map Assignment.column)) :
    i.columns ≠ [] ↔ ∃ row ∈ i.rows, row ≠ [] := by
  constructor
  · intro h
    obtain ⟨c, hc⟩ := List.exists_mem_of_ne_nil _ h
    obtain ⟨row, hrow, hfind⟩ := List.any_eq_true.mp (List.mem_filter.mp hc).2
    refine ⟨row, hrow, ?_⟩
    rintro rfl
    cases hfind
  · rintro ⟨row, hrow, hne⟩
    obtain ⟨a, ha⟩ := List.exists_mem_of_ne_nil _ hne
    obtain ⟨c, hmem, hc⟩ := column_of_has ((hrows row hrow).owned a.column (List.mem_map_of_mem ha))
    exact List.ne_nil_of_mem (mem_columns hrow ha hmem hc)

end Rows

section Statements

private theorem Select.listed_succeeds {s : Select} :
    (∃ l, s.listed [] = .ok l) ↔ s.Admissible ∧ ∀ e ∈ s.terms, e.WellFormed := by
  have hclauses : (∃ f, s.clausePieces (inSight (s.table :: s.joins) []) = .ok f) ↔ _ :=
    clausePieces_succeeds (.of_all fun e => e.pieces_succeeds _)
  rw [← check_succeeds, forall_terms, ← hclauses,
    ← Target.listed_succeeds (inSight (s.table :: s.joins) [])]
  simp [listed, bind_succeeds, map_succeeds]

private theorem Insert.check_succeeds {i : Insert} :
    (∃ u, i.check = .ok u) ↔ i.rows ≠ [] ∧ (∃ row ∈ i.rows, row ≠ []) ∧
      ∀ row ∈ i.rows, i.table.Settable (row.map Assignment.column) := by
  by_cases hrows : i.rows = []
  · simp [check, hrows]
  · rw [and_comm (a := ∃ row ∈ i.rows, row ≠ [])]
    have hcolumns : (∃ u, i.check = .ok u) ↔ (∃ u, checkRows i.table i.rows = .ok u) ∧ i.columns ≠ [] := by
      cases hempty : i.columns <;> simp [check, hrows, hempty, bind_succeeds]
    rw [hcolumns, checkRows_succeeds]
    simp only [ne_eq, hrows, not_false_eq_true, true_and]
    exact and_congr_right columns_ne_nil

private theorem Insert.listed_succeeds {i : Insert} :
    (∃ l, i.listed = .ok l) ↔ i.Admissible ∧ ∀ e ∈ (Statement.insert i).terms, e.WellFormed := by
  obtain ⟨names, hnames⟩ := namesPieces_succeeds i.columns
  have hparts : (∃ l, i.listed = .ok l) ↔ (∃ u, i.check = .ok u) ∧
      (∃ f, separatedPieces ", " (i.rows.map (rowPieces (inSight [i.table] []) i.columns)) = .ok f) ∧
      (∃ f, conflictPieces (inSight [i.table] []) i.table i.conflict = .ok f) ∧
      ∃ l, returningPieces (inSight [i.table] []) i.returning = .ok l := by
    simp [listed, hnames, bind_succeeds, map_succeeds]
  rw [hparts, check_succeeds, conflictPieces_succeeds, returningPieces_succeeds, Statement.terms,
    List.forall_mem_append, List.forall_mem_append, List.forall_mem_map, List.forall_mem_flatMap]
  constructor
  · rintro ⟨⟨hrows, hcolumns, hsettable⟩, hvalues, ⟨hconflict, hterms⟩, hreturning⟩
    rw [rowsPieces_succeeds hsettable] at hvalues
    exact ⟨⟨hrows, hcolumns, hsettable, hconflict⟩,
      ⟨fun row hrow => List.forall_mem_map.mpr (hvalues row hrow), hterms⟩, hreturning⟩
  · rintro ⟨⟨hrows, hcolumns, hsettable, hconflict⟩, ⟨hvalues, hterms⟩, hreturning⟩
    rw [rowsPieces_succeeds hsettable]
    exact ⟨⟨hrows, hcolumns, hsettable⟩, fun row hrow => List.forall_mem_map.mp (hvalues row hrow),
      ⟨hconflict, hterms⟩, hreturning⟩

private theorem Update.check_succeeds {u : Update} : (∃ r, u.check = .ok r) ↔ u.Admissible := by
  have hcolumns : _ ↔ u.table.Settable (u.assignments.map Assignment.column) :=
    checkColumns_succeeds .update .update
  constructor
  · intro h
    by_cases hfilters : u.filters = []
    · simp [check, hfilters] at h
    · by_cases hassignments : u.assignments = []
      · simp [check, hfilters, hassignments] at h
      · exact ⟨hfilters, hassignments, hcolumns.mp (by simpa [check, hfilters, hassignments] using h)⟩
  · rintro ⟨hfilters, hassignments, hsettable⟩
    simpa [check, hfilters, hassignments] using hcolumns.mpr hsettable

private theorem Update.listed_succeeds {u : Update} :
    (∃ l, u.listed = .ok l) ↔ u.Admissible ∧ ∀ e ∈ (Statement.update u).terms, e.WellFormed := by
  obtain ⟨sources, hsources⟩ := sourcesPieces_succeeds " FROM " u.sources
  rw [Statement.terms, List.forall_mem_append, List.forall_mem_append, List.forall_mem_map,
    List.forall_mem_map, and_assoc, ← check_succeeds,
    ← returningPieces_succeeds (inSight (u.table :: u.sources) [])]
  simp [listed, hsources, bind_succeeds, map_succeeds, assignmentsPieces_succeeds, filtersPieces_succeeds]

private theorem Delete.listed_succeeds {d : Delete} :
    (∃ l, d.listed = .ok l) ↔ d.Admissible ∧ ∀ e ∈ (Statement.delete d).terms, e.WellFormed := by
  obtain ⟨sources, hsources⟩ := sourcesPieces_succeeds " USING " d.sources
  have hcheck : (∃ u, d.check = .ok u) ↔ d.Admissible := by
    by_cases hfilters : d.filters = []
    · exact ⟨fun h => by simp [check, hfilters] at h, fun h => absurd hfilters h.filters⟩
    · exact ⟨fun _ => ⟨hfilters⟩, fun _ => ⟨(), by simp [check, hfilters]⟩⟩
  rw [Statement.terms, List.forall_mem_append, List.forall_mem_map, ← hcheck,
    ← returningPieces_succeeds (inSight (d.table :: d.sources) [])]
  simp [listed, hsources, bind_succeeds, map_succeeds, filtersPieces_succeeds]

end Statements

/-- A statement is rendered exactly if it is well formed. -/
theorem Statement.renders_iff (s : Statement) : (∃ r, s.render = .ok r) ↔ s.WellFormed := by
  have hfields : s.WellFormed ↔ s.Admissible ∧ ∀ e ∈ s.terms, e.WellFormed :=
    ⟨fun h => ⟨h.admissible, h.terms⟩, fun h => ⟨h.1, h.2⟩⟩
  rw [s.render_eq, map_succeeds, hfields]
  cases s with
  | select s => exact Select.listed_succeeds
  | insert i => exact Insert.listed_succeeds
  | update u => exact Update.listed_succeeds
  | delete d => exact Delete.listed_succeeds

/-- A select that lists nothing is refused wherever it stands. -/
example :
    let t : Table := .ofColumns "t" []
    (Statement.delete ⟨t, [], [.existence (.ofTable t)], []⟩).render = .error (.statement .noTargets) :=
  rfl

end TypedSql.Sql

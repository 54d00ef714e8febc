import TypedSql.Proofs.Sql.Success
import Mathlib.Data.List.Perm.Basic

/-! The rows of an insert: the columns they are written for, and what each row has for each of them. -/
namespace TypedSql.Sql

section Params

theorem Fragment.params_append (f g : Fragment) :
    Fragment.params (f ++ g) = Fragment.params f ++ Fragment.params g := List.filterMap_append

theorem Fragment.params_text (s : String) (f : Fragment) :
    Fragment.params (.text s :: f) = Fragment.params f := rfl

theorem Table.pieces_params (t : Table) : Fragment.params t.pieces = [] := by
  obtain ⟨name, other | other, members⟩ := t <;> rfl

theorem params_joined (separator : String) (fs : List Fragment) :
    Fragment.params (joined separator fs) = fs.flatMap Fragment.params := by
  induction fs with
  | nil => rfl
  | cons f fs ih =>
    cases fs with
    | nil => simp [joined]
    | cons g fs =>
      rw [joined_cons_cons, Fragment.params_append, Fragment.params_text, ih]; rfl

end Params

/-- What a row has for a column: the term the row sets it to, as it is rendered while the table is in
sight, or a default if the row does not set it. -/
inductive Insert.Cell (i : Insert) (row : List Assignment) (c : Column) : Fragment → Prop
  | set {a : Assignment} {f : Fragment} : a ∈ row → a.column.same c = true →
      Adds (inSight [i.table] []) a.expr.render (.ok f) → Cell i row c f
  | unset : (∀ a ∈ row, ¬ a.column.same c = true) → Cell i row c [.text "DEFAULT"]

/-- The cells of a row, in parentheses. -/
def tuplePieces (cells : List Fragment) : Fragment := .text "(" :: joined ", " cells ++ [.text ")"]

theorem tuplePieces_params (cells : List Fragment) :
    Fragment.params (tuplePieces cells) = cells.flatMap Fragment.params := by
  rw [tuplePieces, List.cons_append, Fragment.params_text, Fragment.params_append, params_joined]
  exact List.append_nil _

section Columns

variable {i : Insert} {row : List Assignment} {c : Column}

theorem Assignment.find?_isSome : (find? row c).isSome = true ↔ ∃ a ∈ row, a.column.same c = true := by
  rw [find?, Option.isSome_map, List.find?_isSome]

theorem Insert.mem_columns :
    c ∈ i.columns ↔ c ∈ i.table.columns ∧ ∃ row ∈ i.rows, ∃ a ∈ row, a.column.same c = true := by
  simp only [columns, List.mem_filter, List.any_eq_true, Assignment.find?_isSome]

theorem Table.columns_names (t : Table) : t.columns.map Column.name = t.members.map Prod.fst := by
  rw [columns, List.map_map]
  rfl

private theorem Insert.columns_distinct (hnames : (i.table.members.map Prod.fst).Nodup) :
    i.columns.Pairwise fun c d => c.name ≠ d.name := by
  rw [← i.table.columns_names, List.Nodup, List.pairwise_map] at hnames
  exact hnames.sublist List.filter_sublist

/-- The assignments of a row, found in the order of the columns, are those of the row: none is lost, and
none is found twice. -/
theorem Insert.assignments_perm (hnames : (i.table.members.map Prod.fst).Nodup) (hrow : row ∈ i.rows)
    (hsettable : i.table.Settable (row.map Assignment.column)) :
    (i.columns.filterMap fun c => row.find? fun a => a.column.same c).Perm row := by
  have hfound {c : Column} {a : Assignment} (h : (row.find? fun a => a.column.same c) = some a) :
      a.column.name = c.name := by
    have hsame := List.find?_some h
    exact congrArg Prod.snd ((Column.same_iff _ _).mp hsame)
  have hdistinct : (row.map fun a => a.column.name).Nodup := by
    rw [← Function.comp_def, ← List.map_map]
    exact hsettable.distinct
  have hleft : (i.columns.filterMap fun c => row.find? fun a => a.column.same c).Nodup := by
    refine List.pairwise_filterMap.mpr ((columns_distinct hnames).imp ?_)
    rintro c d hne a ha _ hb rfl
    exact hne ((hfound ha).symm.trans (hfound hb))
  refine (List.perm_ext_iff_of_nodup hleft hdistinct.of_map).mpr fun a => ?_
  rw [List.mem_filterMap]
  constructor
  · rintro ⟨c, -, h⟩
    exact List.mem_of_find?_eq_some h
  · intro ha
    -- the column of the assignment is one of the table's, and the row has no other assignment to it
    have howns := Table.owns_iff.mpr (hsettable.owned a.column (List.mem_map_of_mem ha))
    obtain ⟨c, hc, hsame⟩ := List.any_eq_true.mp howns
    obtain ⟨b, hb⟩ : ∃ b, (row.find? fun a => a.column.same c) = some b :=
      Option.isSome_iff_exists.mp (by rw [List.find?_isSome]; exact ⟨a, ha, hsame⟩)
    have hname : b.column.name = a.column.name :=
      (hfound hb).trans (congrArg Prod.snd ((Column.same_iff _ _).mp hsame)).symm
    obtain rfl := List.inj_on_of_nodup_map hdistinct (List.mem_of_find?_eq_some hb) ha hname
    exact ⟨c, mem_columns.mpr ⟨hc, row, hrow, b, ha, hsame⟩, hb⟩

end Columns

section Rows

variable {i : Insert}

theorem Insert.checked_settable (h : i.check = .ok ()) :
    ∀ row ∈ i.rows, i.table.Settable (row.map Assignment.column) := by
  have hrows : ∃ u, checkRows i.table i.rows = .ok u := by
    by_cases hempty : i.rows = []
    · simp [check, hempty] at h
    · cases hchecked : checkRows i.table i.rows with
      | ok u => exact ⟨u, rfl⟩
      | error x => simp [check, hempty, hchecked] at h
  exact checkRows_succeeds.mp hrows

theorem Insert.cell_of_pieces {row : List Assignment} {c : Column} {f : Fragment}
    (h : ((Assignment.find? row c).getD .default).pieces (inSight [i.table] []) = .ok f) : i.Cell row c f := by
  cases hfind : row.find? fun a => a.column.same c with
  | none =>
    rw [Assignment.find?, hfind] at h
    cases h
    exact .unset (List.find?_eq_none.mp hfind)
  | some a =>
    rw [Assignment.find?, hfind] at h
    have hsame := List.find?_some hfind
    exact .set (List.mem_of_find?_eq_some hfind) hsame (h ▸ a.expr.render_adds (inSight [i.table] []))

/-- The rows of an insert are written as tuples, each with a cell for each column. -/
theorem Insert.rows_tuples {rows : Fragment}
    (h : separatedPieces ", " (i.rows.map (rowPieces (inSight [i.table] []) i.columns)) = .ok rows) :
    ∃ tuples, List.Forall₂ (fun row cells => List.Forall₂ (i.Cell row) i.columns cells) i.rows tuples ∧
      rows = joined ", " (tuples.map tuplePieces) := by
  have hrow (row : List Assignment) (tuple : Fragment)
      (h : rowPieces (inSight [i.table] []) i.columns row = .ok tuple) :
      ∃ cells, List.Forall₂ (i.Cell row) i.columns cells ∧ tuplePieces cells = tuple := by
    obtain ⟨g, hg, rfl⟩ := map_eq_ok.mp h
    obtain ⟨cells, hcells, rfl⟩ := separatedPieces_ok hg fun c _ f hf => cell_of_pieces hf
    exact ⟨cells, hcells, rfl⟩
  obtain ⟨fs, hfs, rfl⟩ := separatedPieces_ok h fun row _ => hrow row
  obtain ⟨tuples, htuples, rfl⟩ := forall₂_preimages hfs
  exact ⟨tuples, htuples, rfl⟩

/-- An insert and the cells it is written with: its columns are those of the table that some row sets, in
the order of the table, and each row has a cell for each of them. -/
structure Insert.LaidOut (i : Insert) (tuples : List (List Fragment)) : Prop where
  ordered : i.columns.Sublist i.table.columns
  listed : ∀ c, c ∈ i.columns ↔ c ∈ i.table.columns ∧ ∃ row ∈ i.rows, ∃ a ∈ row, a.column.same c = true
  cells : List.Forall₂ (fun row cells => List.Forall₂ (i.Cell row) i.columns cells) i.rows tuples
  /-- No term of a row is lost, and none is written twice. -/
  once : ∀ row ∈ i.rows, (i.columns.filterMap fun c => row.find? fun a => a.column.same c).Perm row

end Rows

/-- An insert into a table with distinct columns is written with the names of the columns that its rows
set, then with the rows as tuples over these columns; its first parameters are those of the tuples, row
by row and in the order of the columns. -/
theorem Insert.rows_laid_out {i : Insert} {r : Rendered} (hnames : (i.table.members.map Prod.fst).Nodup)
    (h : (Statement.insert i).render = .ok r) : ∃ tuples clause returning, i.LaidOut tuples ∧
      conflictPieces (inSight [i.table] []) i.table i.conflict = .ok clause ∧
      returningPieces (inSight [i.table] []) i.returning = .ok returning ∧
      r.body = .text "INSERT INTO " :: i.table.pieces ++
        .text "(" :: joined ", " (i.columns.map fun c => [.name c.name]) ++
        .text ") VALUES " :: joined ", " (tuples.map tuplePieces) ++ clause ++ returning.1 ∧
      r.params = tuples.flatten.flatMap Fragment.params ++ Fragment.params clause ++
        Fragment.params returning.1 := by
  rw [Statement.render_eq] at h
  obtain ⟨l, hl, rfl⟩ := map_eq_ok.mp h
  obtain ⟨hcheck, names, rows, clause, returning, hcolumns, hrows, hclause, hreturning, rfl⟩ := listed_ok hl
  obtain ⟨tuples, hcells, rfl⟩ := rows_tuples hrows
  have hlaid : i.LaidOut tuples := ⟨List.filter_sublist, fun c => mem_columns, hcells,
    fun row hrow => assignments_perm hnames hrow (checked_settable hcheck row hrow)⟩
  obtain rfl := Except.ok.inj ((namesPieces_eq i.columns).symm.trans hcolumns)
  refine ⟨tuples, clause, returning, hlaid, hclause, hreturning, ?_, ?_⟩
  · simp [Listed.behind]
  · have hnone : (i.columns.map fun c => [Piece.name c.name]).flatMap Fragment.params = [] := by
      simp [Fragment.params, Piece.parameter?]
    have htuples : (tuples.map tuplePieces).flatMap Fragment.params =
        tuples.flatten.flatMap Fragment.params := by
      simp only [tuplePieces_params, List.flatMap_def, List.map_flatten, List.map_map,
        List.flatten_flatten, Function.comp_def]
    simp [Rendered.params, Listed.behind, Fragment.params_append, Fragment.params_text, params_joined,
      Table.pieces_params, hnone, htuples]

/-- Two rows that set their columns in other orders than the table has them: the first sets all but one,
the second a single one. -/
theorem Insert.rows_laid_out_visits :
    let visits : Table := .ofColumns "visits" [("id", limitType), ("page", limitType), ("hits", limitType)]
    let value (n : Int64) : Expr := .param (.scalar (.int64 n)) limitType
    let page : Column := ⟨"visits", "page", limitType⟩
    let hits : Column := ⟨"visits", "hits", limitType⟩
    let i : Insert := ⟨visits, [[⟨hits, value 8⟩, ⟨page, value 3⟩], [⟨hits, value 5⟩]], none, []⟩
    (visits.members.map Prod.fst).Nodup ∧ ∃ (r : Rendered) (tuples : List (List Fragment)),
      (Statement.insert i).render = .ok r ∧
        r.sql = "INSERT INTO visits(page, hits) VALUES (?, ?), (DEFAULT, ?)" ∧ i.LaidOut tuples ∧
        r.params = tuples.flatten.flatMap Fragment.params := by
  intro visits value page hits i
  have hnames : (visits.members.map Prod.fst).Nodup := by decide
  have hsql : (Statement.insert i).render.toOption.map Rendered.sql =
      some "INSERT INTO visits(page, hits) VALUES (?, ?), (DEFAULT, ?)" := by
    decide +kernel +revert
  obtain ⟨r, hr⟩ : ∃ r, (Statement.insert i).render = .ok r := ⟨_, rfl⟩
  rw [hr] at hsql
  obtain ⟨tuples, clause, returning, hlaid, hclause, hreturning, -, hparams⟩ :=
    Insert.rows_laid_out hnames hr
  cases hclause
  cases hreturning
  exact ⟨hnames, r, tuples, hr, Option.some.inj hsql, hlaid, by simpa [Fragment.params] using hparams⟩

end TypedSql.Sql

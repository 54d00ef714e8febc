import TypedSql.Proofs.Sql.Visibility
import Mathlib.Data.List.Nodup

/-! References under the scoping rules of SQL, level by level, and the one flat list of columns in sight
that decides how they are written. -/
namespace TypedSql.Sql

/-- The tables of the selects around a place, those of the innermost first. -/
abbrev Levels := List (List Table)

/-- The column a reference means. A bare name belongs to the innermost level that has a column of that
name and has to be the only one there; a name behind a table belongs to the innermost level that has a
table of that name. -/
def resolve : Levels → Option String → String → Option Column
  | [], _, _ => none
  | tables :: outer, none, name =>
    match (tables.flatMap Table.columns).filter (·.name = name) with
    | [] => resolve outer none name
    | [c] => some c
    | _ => none
  | tables :: outer, some owner, name =>
    match tables.filter (·.sqlName = owner) with
    | [] => resolve outer (some owner) name
    | [t] =>
      match t.columns.filter (·.name = name) with
      | [c] => some c
      | _ => none
    | _ => none

/-- The columns in sight within some levels. -/
def Levels.visible (levels : Levels) : List Column := levels.foldr inSight []

theorem Levels.mem_visible {levels : Levels} {c : Column} :
    c ∈ levels.visible ↔ ∃ t ∈ levels.flatten, c ∈ t.columns := by
  induction levels with
  | nil => simp [visible]
  | cons tables outer ih =>
    have hstep : c ∈ Levels.visible (tables :: outer) ↔
        (∃ t ∈ tables, c ∈ t.columns) ∨ c ∈ Levels.visible outer := mem_inSight
    rw [hstep, ih, List.flatten_cons]
    simp only [List.mem_append]
    constructor
    · rintro (⟨t, ht, hc⟩ | ⟨t, ht, hc⟩)
      · exact ⟨t, .inl ht, hc⟩
      · exact ⟨t, .inr ht, hc⟩
    · rintro ⟨t, ht | ht, hc⟩
      · exact .inl ⟨t, ht, hc⟩
      · exact .inr ⟨t, ht, hc⟩

/-- A column a term refers to, within the levels around it. -/
structure Occurrence where
  levels : Levels
  column : Column

namespace Occurrence

/-- The table a reference is written behind, if any. -/
def owner (o : Occurrence) : Option String :=
  if (Scope.mk o.levels.visible []).needsQualification o.column then some o.column.owner else none

/-- Open tables have names of their own, columns have names of their own within their table, and the
column is one of an open table. -/
structure Proper (o : Occurrence) : Prop where
  tables : (o.levels.flatten.map Table.sqlName).Nodup
  columns : ∀ t ∈ o.levels.flatten, (t.members.map Prod.fst).Nodup
  owned : ∃ t ∈ o.levels.flatten, t.owns o.column = true

instance (o : Occurrence) : Decidable o.Proper :=
  decidable_of_iff ((o.levels.flatten.map Table.sqlName).Nodup ∧
      (∀ t ∈ o.levels.flatten, (t.members.map Prod.fst).Nodup) ∧
      ∃ t ∈ o.levels.flatten, t.owns o.column = true)
    ⟨fun ⟨htables, hcolumns, howned⟩ => ⟨htables, hcolumns, howned⟩,
      fun ⟨htables, hcolumns, howned⟩ => ⟨htables, hcolumns, howned⟩⟩

/-- No other open table has a column of this name. -/
def Alone (o : Occurrence) : Prop :=
  ∀ t ∈ o.levels.flatten, t.sqlName ≠ o.column.owner → ∀ c ∈ t.columns, c.name ≠ o.column.name

end Occurrence

section Unique

variable {α β γ : Type} {f : α → β} {l : List α} {a : α}

private theorem flatMap_unique {g : α → List γ} (h : (l.map f).Nodup) (ha : a ∈ l)
    (hg : ∀ b ∈ l, f b ≠ f a → g b = []) : l.flatMap g = g a := by
  induction l with
  | nil => cases ha
  | cons b l ih =>
    obtain ⟨hb, hl⟩ := List.nodup_cons.mp h
    rw [List.flatMap_cons]
    rcases List.mem_cons.mp ha with rfl | ha
    · have hrest : l.flatMap g = [] := List.flatMap_eq_nil_iff.mpr fun c hc => by
        refine hg c (List.mem_cons_of_mem _ hc) fun he => hb ?_
        exact he ▸ List.mem_map_of_mem hc
      rw [hrest, List.append_nil]
    · have hne : f b ≠ f a := fun he => hb (he ▸ List.mem_map_of_mem ha)
      rw [hg b List.mem_cons_self hne, ih hl ha fun c hc => hg c (List.mem_cons_of_mem b hc)]
      rfl

private theorem filter_unique [DecidableEq β] (h : (l.map f).Nodup) (ha : a ∈ l) :
    l.filter (fun b => f b = f a) = [a] := by
  have hfilter : l.filter (fun b => f b = f a) = l.flatMap fun b => if f b = f a then [b] else [] := by
    clear h ha
    induction l with
    | nil => rfl
    | cons b l ih => by_cases hb : f b = f a <;> simp [hb, ih]
  rw [hfilter, flatMap_unique h ha fun b _ hb => if_neg hb, if_pos rfl]

end Unique

theorem Table.owner_eq {t : Table} {c : Column} (h : c ∈ t.columns) : c.owner = t.sqlName := by
  obtain ⟨m, -, rfl⟩ := List.mem_map.mp h
  rfl

/-- A table whose columns have names of their own has one column of each name it has. -/
private theorem filter_columns {t : Table} (h : (t.members.map Prod.fst).Nodup) {c : Column}
    (hc : c ∈ t.columns) : t.columns.filter (·.name = c.name) = [c] := by
  have hmap : t.columns.map Column.name = t.members.map Prod.fst := by
    simp [Table.columns, Function.comp_def]
  exact filter_unique (hmap ▸ h) hc

section Resolution

variable {levels : Levels} {t : Table} {c : Column}

/-- Levels whose tables have names of their own do not name a table of an outer level. -/
private theorem ne_of_outer {tables : List Table} {outer : Levels}
    (h : ((tables :: outer).flatten.map Table.sqlName).Nodup) {u : Table} (hu : u ∈ tables)
    (ht : t ∈ outer.flatten) : u.sqlName ≠ t.sqlName := by
  rw [List.flatten_cons, List.map_append] at h
  intro he
  exact List.disjoint_of_nodup_append h (List.mem_map_of_mem hu) (he ▸ List.mem_map_of_mem ht)

theorem resolve_bare (htables : (levels.flatten.map Table.sqlName).Nodup)
    (hcolumns : (t.members.map Prod.fst).Nodup) (ht : t ∈ levels.flatten) (hc : c ∈ t.columns)
    (honly : ∀ u ∈ levels.flatten, ∀ d ∈ u.columns, d.name = c.name → u.sqlName = t.sqlName) :
    resolve levels none c.name = some c := by
  induction levels with
  | nil => cases ht
  | cons tables outer ih =>
    have hfilter : (tables.flatMap Table.columns).filter (·.name = c.name) =
        tables.flatMap fun u => u.columns.filter (·.name = c.name) := List.filter_flatMap
    have hnone {u : Table} (hu : u ∈ tables) (hne : u.sqlName ≠ t.sqlName) :
        u.columns.filter (·.name = c.name) = [] := List.filter_eq_nil_iff.mpr fun d hd he =>
      hne (honly u (List.mem_append_left _ hu) d hd (by simpa using he))
    by_cases hin : t ∈ tables
    · have hnodup : (tables.map Table.sqlName).Nodup := by
        rw [List.flatten_cons, List.map_append] at htables
        exact htables.of_append_left
      rw [resolve, hfilter, flatMap_unique hnodup hin fun u hu => hnone hu, filter_columns hcolumns hc]
    · have hout : t ∈ outer.flatten := (List.mem_append.mp ht).resolve_left hin
      have hempty : tables.flatMap (fun u => u.columns.filter (·.name = c.name)) = [] :=
        List.flatMap_eq_nil_iff.mpr fun u hu => hnone hu (ne_of_outer htables hu hout)
      rw [resolve, hfilter, hempty]
      refine ih ?_ hout fun u hu => honly u (List.mem_append_right _ hu)
      rw [List.flatten_cons, List.map_append] at htables
      exact htables.of_append_right

theorem resolve_qualified (htables : (levels.flatten.map Table.sqlName).Nodup)
    (hcolumns : (t.members.map Prod.fst).Nodup) (ht : t ∈ levels.flatten) (hc : c ∈ t.columns) :
    resolve levels (some t.sqlName) c.name = some c := by
  induction levels with
  | nil => cases ht
  | cons tables outer ih =>
    by_cases hin : t ∈ tables
    · have hnodup : (tables.map Table.sqlName).Nodup := by
        rw [List.flatten_cons, List.map_append] at htables
        exact htables.of_append_left
      rw [resolve, filter_unique hnodup hin]
      simp only [filter_columns hcolumns hc]
    · have hout : t ∈ outer.flatten := (List.mem_append.mp ht).resolve_left hin
      have hempty : tables.filter (·.sqlName = t.sqlName) = [] := List.filter_eq_nil_iff.mpr
        fun u hu he => ne_of_outer htables hu hout (by simpa using he)
      rw [resolve, hempty]
      refine ih ?_ hout
      rw [List.flatten_cons, List.map_append] at htables
      exact htables.of_append_right

end Resolution

namespace Occurrence

variable {o : Occurrence}

/-- A reference means the column it was built from. -/
theorem Proper.resolves (h : o.Proper) :
    ∃ c, resolve o.levels o.owner o.column.name = some c ∧ o.column.same c = true := by
  obtain ⟨t, ht, howns⟩ := h.owned
  obtain ⟨c, hc, hsame⟩ := List.any_eq_true.mp howns
  obtain ⟨howner, hname⟩ : o.column.owner = c.owner ∧ o.column.name = c.name := by
    simpa [Column.same] using hsame
  refine ⟨c, ?_, hsame⟩
  rw [hname, owner]
  split
  · rw [howner, Table.owner_eq hc]
    exact resolve_qualified h.tables (h.columns t ht) ht hc
  · rename_i hq
    refine resolve_bare h.tables (h.columns t ht) ht hc fun u hu d hd hd' => ?_
    have hothers : Scope.isVisible ⟨o.levels.visible, []⟩ o.column = true ∧
        ∀ d ∈ o.levels.visible, d.name = o.column.name → o.column.same d = true := by
      simpa [Scope.needsQualification] using hq
    have hd'' := hothers.2 d (Levels.mem_visible.mpr ⟨u, hu, hd⟩) (hd'.trans hname.symm)
    obtain ⟨he, -⟩ : o.column.owner = d.owner ∧ o.column.name = d.name := by
      simpa [Column.same] using hd''
    rw [← Table.owner_eq hd, ← Table.owner_eq hc, ← he, howner]

/-- A column whose name no other open table has is written bare. -/
theorem Proper.bare (h : o.Proper) (halone : o.Alone) : o.owner = none := by
  obtain ⟨t, ht, howns⟩ := h.owned
  obtain ⟨c, hc, hsame⟩ := List.any_eq_true.mp howns
  have hvisible : Scope.isVisible ⟨o.levels.visible, []⟩ o.column = true :=
    List.any_eq_true.mpr ⟨c, Levels.mem_visible.mpr ⟨t, ht, hc⟩, hsame⟩
  have hothers (d : Column) (hd : d ∈ o.levels.visible) (hn : d.name = o.column.name) :
      o.column.same d = true := by
    obtain ⟨u, hu, hd⟩ := Levels.mem_visible.mp hd
    by_cases he : u.sqlName = o.column.owner
    · simp [Column.same, Table.owner_eq hd, he, hn]
    · exact absurd hn (halone u hu he d hd)
  have hq : Scope.needsQualification ⟨o.levels.visible, []⟩ o.column = false := by
    simpa [Scope.needsQualification, hvisible] using hothers
  rw [owner, hq]
  rfl

end Occurrence

end TypedSql.Sql

import TypedSql.Proofs.Server.Rows
import Mathlib.Data.Nat.Find

/-! Fields of a record looked up by name: the value is that of the first output that fills the field, and
it is read in the type of the first target that has the output's text. -/
namespace TypedSql
open Sql Server

namespace Value

variable {name : String} {fields rest : List (String × Value)}

theorem lookup_append_of_notMem (h : name ∉ fields.map Prod.fst) :
    lookup name (fields ++ rest) = lookup name rest := by
  rw [lookup_append, lookup_eq_none.mpr h, Option.none_or]

theorem lookup_append_same {names : List String} (h : name ∈ names) (v : Value) :
    lookup name (names.map (·, v) ++ rest) = some v := by
  induction names with
  | nil => cases h
  | cons other names ih =>
    by_cases hname : other = name
    · simp [lookup, hname]
    · have hmem : name ∈ names := (List.mem_cons.mp h).resolve_left (Ne.symm hname)
      rw [← ih hmem]
      simp [lookup, hname]

/-- A name is found in the first of several lists that has it. -/
theorem lookup_flatten {columns : List (List (String × Value))} {k : Nat} {names : List String} {v : Value}
    (hk : columns[k]? = some (names.map (·, v))) (hname : name ∈ names)
    (hfirst : ∀ j < k, ∀ column, columns[j]? = some column → name ∉ column.map Prod.fst) :
    lookup name columns.flatten = some v := by
  induction columns generalizing k with
  | nil => cases hk
  | cons column columns ih =>
    rw [List.flatten_cons]
    cases k with
    | zero =>
      cases hk
      exact lookup_append_same hname v
    | succ k =>
      rw [lookup_append_of_notMem (hfirst 0 k.succ_pos column rfl)]
      exact ih hk fun j hj column hcolumn => hfirst (j + 1) (Nat.succ_lt_succ hj) column hcolumn

end Value

namespace Server

/-- A row that is read has nulls only where outputs may be null. -/
theorem decodeRow_nullable {outputs : List Output} {row : List Wire} {record : Record}
    (h : decodeRow outputs row = .ok record) {k : Nat} {o : Output} (hk : outputs[k]? = some o)
    (hnull : row[k]? = some .null) : o.type.nullable = true := by
  replace h := (decodeRow_ok h).2
  generalize record.fields = fields at h
  induction outputs generalizing row k fields with
  | nil => cases hk
  | cons p outputs ih =>
    cases row with
    | nil => cases hnull
    | cons w row =>
      rw [decodeColumns] at h
      obtain ⟨column, hcolumn, h⟩ := bind_eq_ok.mp h
      obtain ⟨rest, hrest, -⟩ := bind_eq_ok.mp h
      cases k with
      | succ k => exact ih hk hnull rest hrest
      | zero =>
        cases hk
        cases hnull
        by_contra hnullable
        rw [decodeColumn, if_pos (by simpa [Wire.isNull] using hnullable)] at hcolumn
        cases hcolumn

end Server

namespace Sql

namespace Entry

/-- The output in which a field is found: the first one that fills a field of this name. -/
structure Source (es : List Entry) (field : String) (k : Nat) (d : Entry) : Prop where
  column : (firsts es)[k]? = some d
  fills : ∃ e ∈ es, d.alike e = true ∧ e.field = field
  first : ∀ j < k, ∀ c, (firsts es)[j]? = some c → ∀ e ∈ es, c.alike e = true → e.field ≠ field

variable {es : List Entry} {row : List Wire} {record : Record}

/-- The field of an entry is found in one output. -/
theorem exists_unique_source {e : Entry} (h : Placed es) (he : e ∈ es) :
    ∃! p : Nat × Entry, Source es e.field p.1 p.2 := by
  classical
  let Fills (k : Nat) : Prop :=
    ∃ d, (firsts es)[k]? = some d ∧ ∃ e' ∈ es, d.alike e' = true ∧ e'.field = e.field
  have hexists : ∃ k, Fills k := by
    obtain ⟨d, hd, halike⟩ := exists_first h he
    obtain ⟨k, hk⟩ := List.mem_iff_getElem?.mp hd
    exact ⟨k, d, hk, e, he, halike, rfl⟩
  obtain ⟨d, hk, hfills⟩ := Nat.find_spec hexists
  refine ⟨(Nat.find hexists, d), ⟨hk, hfills, ?_⟩, ?_⟩
  · intro j hj c hc e' he' halike hfield
    exact Nat.find_min hexists hj ⟨c, hc, e', he', halike, hfield⟩
  · rintro ⟨l, c⟩ ⟨hl, ⟨e', he', halike, hfield⟩, hfirst⟩
    obtain ⟨e₀, he₀, halike₀, hfield₀⟩ := hfills
    -- neither output stands before the other
    rcases Nat.lt_trichotomy l (Nat.find hexists) with hlt | rfl | hlt
    · exact absurd ⟨c, hl, e', he', halike, hfield⟩ (Nat.find_min hexists hlt)
    · obtain rfl := Option.some.inj (hl.symm.trans hk)
      rfl
    · exact absurd hfield₀ (hfirst _ hlt d hk e₀ he₀ halike₀)

/-- A look-up gives the value of the output in which the field is found, read in the type of the target
that claimed it. -/
theorem record_get (hrecord : decodeRow ((firsts es).mapIdx (output es)) row = .ok record) {field : String}
    {k : Nat} {d : Entry} (h : Source es field k d) : ∃ w v, row[k]? = some w ∧
      (w = .null → d.target.type.nullable = true) ∧ d.target.type.decode w = .ok v ∧
      record.get? field = some v := by
  obtain ⟨columns, hcolumns, -, hdecode⟩ := record_columns hrecord
  obtain ⟨w, v, hw, hv, hcolumn⟩ := hdecode k d h.column
  have houtput : ((firsts es).mapIdx (output es))[k]? = some (output es k d) := by
    rw [List.getElem?_mapIdx, h.column, Option.map_some]
  refine ⟨w, v, hw, ?_, hv, ?_⟩
  · rintro rfl
    exact decodeRow_nullable hrecord houtput hw
  · obtain ⟨e, he, halike, hfield⟩ := h.fills
    have hmap : columns[k]? = some (((sharing es d).map Entry.field).map (·, v)) := by
      rw [hcolumn, List.map_map]
      rfl
    rw [Record.get?, hcolumns]
    refine Value.lookup_flatten hmap ?_ fun j hj column hj' => ?_
    · exact hfield ▸ List.mem_map_of_mem (List.mem_filter.mpr ⟨he, halike⟩)
    · have hlt : j < (firsts es).length := Nat.lt_trans hj (List.getElem?_eq_some_iff.mp h.column).1
      obtain ⟨w', v', -, -, hcolumn'⟩ := hdecode j _ (List.getElem?_eq_getElem hlt)
      obtain rfl := Option.some.inj (hj'.symm.trans hcolumn')
      intro hmem
      simp only [List.map_map, List.mem_map, sharing, List.mem_filter, Function.comp_apply] at hmem
      obtain ⟨e', ⟨he', halike'⟩, hfield'⟩ := hmem
      exact h.first j hj _ (List.getElem?_eq_getElem hlt) e' he' halike' hfield'

end Entry

/-- The field of every target is found in a record that was read. Its value is that of the first output
that fills a field of this name, in the type of the first target with the output's text: hence the
target's own column in its own type, unless an output before it has the name or a target before it has
the text with another type. -/
theorem Statement.fields_found {s : Statement} {r : Rendered} (h : s.render = .ok r) :
    ∃ es, s.Answers r es ∧ ∀ row record, decodeRow r.outputs row = .ok record →
      (∀ e ∈ es, ∃! p : Nat × Entry, Entry.Source es e.field p.1 p.2) ∧
      (∀ (field : String) (k : Nat) (d : Entry), Entry.Source es field k d → ∃ w v, row[k]? = some w ∧
        (w = .null → d.target.type.nullable = true) ∧ d.target.type.decode w = .ok v ∧
        record.get? field = some v) ∧
      ∀ e ∈ es, ∀ (k : Nat) (d : Entry), (Entry.firsts es)[k]? = some d → d.alike e = true →
        d.target.type = e.target.type →
        (∀ j < k, ∀ c : Entry, (Entry.firsts es)[j]? = some c → ∀ e' ∈ es, c.alike e' = true →
          e'.field ≠ e.field) →
        ∃ w v, row[k]? = some w ∧ (w = .null → e.target.type.nullable = true) ∧
          e.target.type.decode w = .ok v ∧ record.get? e.field = some v := by
  obtain ⟨es, hes⟩ := Statement.answers h
  have hplaced := Entry.placed_of_places hes.places
  refine ⟨es, hes, fun row record hrecord => ?_⟩
  rw [hes.outputs] at hrecord
  refine ⟨fun e he => Entry.exists_unique_source hplaced he,
    fun field k d hsource => Entry.record_get hrecord hsource, ?_⟩
  intro e he k d hk halike htype hfirst
  rw [← htype]
  exact Entry.record_get hrecord ⟨hk, ⟨e, he, halike, rfl⟩, hfirst⟩

/-- Three targets in two columns, the third with the text of the first and the name of the second: a
look-up gives the field of the first column. -/
theorem Statement.fields_found_shared :
    let person : Table := .ofColumns "person" [("id", limitType), ("age", limitType)]
    let id : Expr := .column ⟨"person", "id", limitType⟩
    let age : Expr := .column ⟨"person", "age", limitType⟩
    let s : Statement := .select ⟨person, [],
      [⟨"id", id, limitType⟩, ⟨"key", age, limitType⟩, ⟨"key", id, limitType⟩], [], [], none, none⟩
    let row : List Wire := [.scalar (.int64 3), .scalar (.int64 7)]
    ∃ r es record, s.render = .ok r ∧ s.Answers r es ∧ decodeRow r.outputs row = .ok record ∧
      record.get? "key" = some (.scalar (.int64 3)) ∧
      ∀ (field : String) (k : Nat) (d : Entry), Entry.Source es field k d → ∃ w v, row[k]? = some w ∧
        d.target.type.decode w = .ok v ∧ record.get? field = some v := by
  intro person id age s row
  have hrow : (s.render >>= fun r => decodeRow r.outputs row) = .ok
      ⟨[("id", .scalar (.int64 3)), ("key", .scalar (.int64 3)), ("key", .scalar (.int64 7))]⟩ := by rfl
  obtain ⟨r, hr, hrecord⟩ := bind_eq_ok.mp hrow
  obtain ⟨es, hes, hrows⟩ := Statement.fields_found hr
  refine ⟨r, es, _, hr, hes, hrecord, rfl, fun field k d hsource => ?_⟩
  obtain ⟨w, v, hw, -, hv, hget⟩ := (hrows row _ hrecord).2.1 field k d hsource
  exact ⟨w, v, hw, hv, hget⟩

/-- A target that shares the column of one with another type has that type's value, and a null although
its own type has none. A field named as one in a column before it is not found by its name. -/
theorem Statement.fields_shared_and_hidden :
    let person : Table := .ofColumns "person" [("id", limitType)]
    let other : Table := person.aliased "other"
    let id : Expr := .column ⟨"person", "id", limitType⟩
    let small : TypeRef := .builtin .int4 false
    let folded : Statement := .select ⟨person, [],
      [⟨"id", id, limitType.withNullable true⟩, ⟨"small", id, small⟩], [], [], none, none⟩
    let joined : Statement := .select ⟨person, [other],
      [⟨"id", id, limitType⟩, ⟨"id", .column ⟨"other", "id", limitType⟩, limitType⟩], [], [], none, none⟩
    let three : Wire := .scalar (.int64 3)
    let seven : Wire := .scalar (.int64 7)
    let found (s : Statement) (row : List Wire) (field : String) : Except Error (Option Value) := do
      let r ← s.render
      let record ← decodeRow r.outputs row
      return record.get? field
    (found folded [three] "small" = .ok (some (.scalar (.int64 3))) ∧
        small.decode three = .ok (.scalar (.int32 3))) ∧
      (found folded [.null] "small" = .ok (some .null) ∧ small.nullable = false) ∧
      found joined [three, seven] "id" = .ok (some (.scalar (.int64 3))) ∧
        limitType.decode seven = .ok (.scalar (.int64 7)) := by
  exact ⟨⟨rfl, rfl⟩, ⟨rfl, rfl⟩, rfl, rfl⟩

end Sql
end TypedSql

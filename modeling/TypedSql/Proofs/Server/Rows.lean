import TypedSql.Server.Row
import TypedSql.Proofs.Conversion.RoundTrip
import TypedSql.Proofs.Sql.Targets

/-! Rows read against the outputs of a statement: each target has its field, with the value of the one
column that has its text. -/
namespace TypedSql
open Sql Server

namespace Server

variable {o : Output} {w : Wire} {outputs : List Output} {row : List Wire}
  {fields : List (String × Value)}

theorem decodeColumn_ok (h : decodeColumn o w = .ok fields) :
    ∃ v, o.type.decode w = .ok v ∧ fields = o.fields.map (·, v) := by
  rw [decodeColumn] at h
  split at h
  · cases h
  · obtain ⟨v, hv, h⟩ := bind_eq_ok.mp h
    cases h
    exact ⟨v, hv, rfl⟩

/-- Each column gives its fields the value in its place of the row. -/
theorem decodeColumns_ok (hwidth : row.length = outputs.length)
    (h : decodeColumns outputs row = .ok fields) :
    ∃ columns : List (List (String × Value)), fields = columns.flatten ∧
      columns.length = outputs.length ∧
      ∀ (k : Nat) (o : Output) (w : Wire), outputs[k]? = some o → row[k]? = some w →
        ∃ v, o.type.decode w = .ok v ∧ columns[k]? = some (o.fields.map (·, v)) := by
  induction outputs generalizing row fields with
  | nil =>
    cases h
    exact ⟨[], rfl, rfl, by simp⟩
  | cons o outputs ih =>
    obtain ⟨w, row, rfl⟩ := List.exists_cons_of_length_eq_add_one hwidth
    rw [decodeColumns] at h
    obtain ⟨column, hcolumn, h⟩ := bind_eq_ok.mp h
    obtain ⟨rest, hrest, h⟩ := bind_eq_ok.mp h
    cases h
    obtain ⟨v, hv, rfl⟩ := decodeColumn_ok hcolumn
    obtain ⟨columns, rfl, hlength, hcolumns⟩ := ih (by simpa using hwidth) hrest
    refine ⟨o.fields.map (·, v) :: columns, rfl, by simp [hlength], fun k p u hp hu => ?_⟩
    cases k with
    | zero =>
      cases hp
      cases hu
      exact ⟨v, hv, rfl⟩
    | succ k => exact hcolumns k p u hp hu

theorem decodeRow_ok {record : Record} (h : decodeRow outputs row = .ok record) :
    row.length = outputs.length ∧ decodeColumns outputs row = .ok record.fields := by
  rw [decodeRow] at h
  split at h
  · rename_i hwidth
    obtain ⟨fields, hfields, rfl⟩ := map_eq_ok.mp h
    exact ⟨hwidth, hfields⟩
  · cases h

/-- A row that was read has a column for each output, with one value for all fields that the output fills. -/
theorem decodeRow_columns {record : Record} (h : decodeRow outputs row = .ok record) :
    ∃ columns : List (List (String × Value)), record.fields = columns.flatten ∧
      columns.length = outputs.length ∧
      ∀ (k : Nat) (o : Output), outputs[k]? = some o → ∃ w v, row[k]? = some w ∧
        o.type.decode w = .ok v ∧ columns[k]? = some (o.fields.map (·, v)) := by
  obtain ⟨hwidth, hfields⟩ := decodeRow_ok h
  obtain ⟨columns, hcolumns, hlength, hdecode⟩ := decodeColumns_ok hwidth hfields
  refine ⟨columns, hcolumns, hlength, fun k o hk => ?_⟩
  have hlt : k < row.length := hwidth ▸ (List.getElem?_eq_some_iff.mp hk).1
  have hw : row[k]? = some row[k] := List.getElem?_eq_getElem hlt
  obtain ⟨v, hv, hcolumn⟩ := hdecode k o row[k] hk hw
  exact ⟨row[k], v, hw, hv, hcolumn⟩

end Server

namespace Sql

namespace Entry

variable {es : List Entry} {row : List Wire} {record : Record}

/-- A row has a column for each entry that stands first, and every field of an entry with its text has
the value of the column. -/
theorem record_columns (hrecord : decodeRow ((firsts es).mapIdx (output es)) row = .ok record) :
    ∃ columns : List (List (String × Value)), record.fields = columns.flatten ∧
      columns.length = (firsts es).length ∧
      ∀ (k : Nat) (d : Entry), (firsts es)[k]? = some d → ∃ w v, row[k]? = some w ∧
        d.target.type.decode w = .ok v ∧ columns[k]? = some ((sharing es d).map fun e => (e.field, v)) := by
  obtain ⟨columns, hcolumns, hlength, hdecode⟩ := decodeRow_columns hrecord
  rw [List.length_mapIdx] at hlength
  refine ⟨columns, hcolumns, hlength, fun k d hk => ?_⟩
  have houtput : ((firsts es).mapIdx (output es))[k]? = some (output es k d) := by
    rw [List.getElem?_mapIdx, hk, Option.map_some]
  obtain ⟨w, v, hw, hv, hcolumn⟩ := hdecode k _ houtput
  refine ⟨w, v, hw, hv, ?_⟩
  rw [hcolumn, output, List.map_map]
  rfl

theorem first_unique {e : Entry} (h : Placed es) (he : e ∈ es) {k l : Nat} {d d' : Entry}
    (hk : (firsts es)[k]? = some d) (hl : (firsts es)[l]? = some d') (hd : d.alike e = true)
    (hd' : d'.alike e = true) : k = l ∧ d = d' := by
  obtain rfl := (exists_unique_first h he).unique ⟨List.mem_of_getElem? hk, hd⟩
    ⟨List.mem_of_getElem? hl, hd'⟩
  have hlt := (List.getElem?_eq_some_iff.mp hk).1
  exact ⟨(List.getElem?_inj hlt (firsts_nodup h)).mp (hk.trans hl.symm), rfl⟩

/-- A record has one field for each entry, with the value of the column that has the entry's text. -/
theorem record_values (h : Placed es)
    (hrecord : decodeRow ((firsts es).mapIdx (output es)) row = .ok record) :
    ∃ value : Entry → Value, record.fields.Perm (es.map fun e => (e.field, value e)) ∧
      ∀ e ∈ es, ∀ (k : Nat) (d : Entry), (firsts es)[k]? = some d → d.alike e = true →
        ∃ w, row[k]? = some w ∧ d.target.type.decode w = .ok (value e) := by
  obtain ⟨columns, hcolumns, hlength, hdecode⟩ := record_columns hrecord
  have hvalue : ∀ e ∈ es, ∃ v, ∀ (k : Nat) (d : Entry), (firsts es)[k]? = some d →
      d.alike e = true → ∃ w, row[k]? = some w ∧ d.target.type.decode w = .ok v := by
    intro e he
    obtain ⟨d, hd, halike⟩ := exists_first h he
    obtain ⟨k, hk⟩ := List.mem_iff_getElem?.mp hd
    obtain ⟨w, v, hw, hv, -⟩ := hdecode k d hk
    refine ⟨v, fun l d' hl halike' => ?_⟩
    obtain ⟨rfl, rfl⟩ := first_unique h he hk hl halike halike'
    exact ⟨w, hw, hv⟩
  have : Nonempty Value := ⟨.null⟩
  choose! value hvalue using hvalue
  have hall : columns = (firsts es).map fun d => (sharing es d).map fun e => (e.field, value e) := by
    refine List.ext_getElem? fun k => ?_
    rw [List.getElem?_map]
    cases hk : (firsts es)[k]? with
    | none => simpa [hlength] using hk
    | some d =>
      obtain ⟨w, v, hw, hv, hcolumn⟩ := hdecode k d hk
      rw [hcolumn, Option.map_some]
      congr 1
      refine List.map_congr_left fun e he => ?_
      obtain ⟨hmem, halike⟩ := List.mem_filter.mp he
      obtain ⟨w', hw', hv'⟩ := hvalue e hmem k d hk halike
      obtain rfl : w = w' := Option.some.inj (hw.symm.trans hw')
      rw [Except.ok.inj (hv.symm.trans hv')]
  refine ⟨value, ?_, hvalue⟩
  rw [hcolumns, hall, ← List.flatMap_def, ← List.map_flatMap]
  exact (firsts_flatMap_sharing h).map _

end Entry

/-- The targets of a statement are answered: each text is listed once and has one output, and every row
that is read gives each target a field, with the value of the column listed for the target's text. -/
theorem Statement.targets_answered {s : Statement} {r : Rendered} (h : s.render = .ok r) :
    ∃ es, s.Answers r es ∧ ∀ row record, decodeRow r.outputs row = .ok record →
      ∃ value : Entry → Value, record.fields.Perm (es.map fun e => (e.field, value e)) ∧
        (∀ e ∈ es, ∀ (k : Nat) (d : Entry), (Entry.firsts es)[k]? = some d → d.alike e = true →
          ∃ w, row[k]? = some w ∧ d.target.type.decode w = .ok (value e)) ∧
        ((es.map Entry.field).Nodup → ∀ e ∈ es, record.get? e.field = some (value e)) := by
  obtain ⟨es, hes⟩ := Statement.answers h
  have hplaced := Entry.placed_of_places hes.places
  refine ⟨es, hes, fun row record hrecord => ?_⟩
  rw [hes.outputs] at hrecord
  obtain ⟨value, hperm, hvalue⟩ := Entry.record_values hplaced hrecord
  refine ⟨value, hperm, hvalue, fun hnames e he => ?_⟩
  have hfields : (record.fields.map Prod.fst).Nodup := by
    rw [(hperm.map Prod.fst).nodup_iff, List.map_map]
    exact hnames
  exact Value.lookup_of_mem hfields (hperm.symm.subset (List.mem_map_of_mem he))

/-- A column listed for two of three targets, beside a select with a list of its own, and a row. -/
theorem Statement.targets_answered_shared :
    let person : Table := .ofColumns "person" [("id", limitType), ("name", limitType)]
    let other : Table := person.aliased "other"
    let id : Expr := .column ⟨"person", "id", limitType⟩
    let inner : Select := ⟨other, [],
      [⟨"last", .call "max" [.column ⟨"other", "id", limitType⟩], limitType⟩], [], [], none, none⟩
    let s : Statement := .select ⟨person, [],
      [⟨"id", id, limitType⟩, ⟨"last", .subquery inner, limitType⟩, ⟨"key", id, limitType⟩],
      [], [], none, none⟩
    let row : List Wire := [.scalar (.int64 3), .scalar (.int64 7)]
    let record : Record :=
      ⟨[("id", .scalar (.int64 3)), ("key", .scalar (.int64 3)), ("last", .scalar (.int64 7))]⟩
    ∃ r es, ∃ value : Entry → Value, s.render = .ok r ∧ decodeRow r.outputs row = .ok record ∧
      s.Answers r es ∧ record.fields.Perm (es.map fun e => (e.field, value e)) := by
  intro person other id inner s row record
  have hrecord : (s.render >>= fun r => decodeRow r.outputs row) = .ok record := by rfl
  obtain ⟨r, hr, hrecord⟩ := bind_eq_ok.mp hrecord
  obtain ⟨es, hes, hrows⟩ := Statement.targets_answered hr
  obtain ⟨value, hperm, -⟩ := hrows row record hrecord
  exact ⟨r, es, value, hr, hrecord, hes, hperm⟩

end Sql
end TypedSql

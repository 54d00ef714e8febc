import TypedSql.Proofs.Conversion.Steps
import TypedSql.Proofs.Value.Induction

/-! Values read back as they were written, kind by kind, and hence whole values: those in the form their
type is read in, and all that was ever read. -/
namespace TypedSql

mutual

/-- The elements of an array, those of nested arrays in place of the arrays. -/
def Value.elements : Value → List Value
  | .array items => Value.allElements items
  | v => [v]

def Value.allElements : List Value → List Value
  | [] => []
  | v :: rest => v.elements ++ Value.allElements rest

end

theorem Value.allElements_eq (items : List Value) : allElements items = items.flatMap elements := by
  induction items with
  | nil => rfl
  | cons v rest ih => rw [allElements, ih, List.flatMap_cons]

theorem Value.elements_array (items : List Value) :
    (Value.array items).elements = items.flatMap elements := by
  rw [elements, allElements_eq]

theorem Value.elements_of_ne {v : Value} (h : ∀ items, v ≠ .array items) : v.elements = [v] := by
  cases v with
  | array items => exact absurd rfl (h items)
  | _ => rfl

/-- The elements of what is read as an item of an array are read one by one, none from an array. -/
theorem Wire.decodeItem_elements {decode : Wire → Except Error Value} {w : Wire} {v : Value}
    (hdecode : ∀ w items, decode w = .ok (.array items) → w.isArray = true)
    (h : w.decodeItem decode = .ok v) :
    ∀ x ∈ v.elements, ∃ w', w'.isArray = false ∧ decode w' = .ok x := by
  induction w using Wire.induction generalizing v with
  | array element items ih =>
    rw [decodeItem, decodeItems_eq] at h
    obtain ⟨values, hvalues, rfl⟩ := map_eq_ok.mp h
    intro x hx
    rw [Value.elements_array] at hx
    obtain ⟨value, hvalue, hx⟩ := List.mem_flatMap.mp hx
    obtain ⟨w, hw, hitem⟩ := mapM_mem hvalues hvalue
    exact ih w hw hitem x hx
  | _ =>
    rw [decodeItem_eq rfl] at h
    have hv : ∀ items, v ≠ .array items := by
      rintro items rfl
      cases hdecode _ items h
    rw [Value.elements_of_ne hv, List.forall_mem_singleton]
    exact ⟨_, rfl, h⟩

theorem Value.lookup_append (name : String) (fields rest : List (String × Value)) :
    lookup name (fields ++ rest) = (lookup name fields).or (lookup name rest) := by
  simp [lookup, List.find?_append, Option.map_or]

theorem Value.lookup_eq_none {name : String} {fields : List (String × Value)} :
    lookup name fields = none ↔ name ∉ fields.map Prod.fst := by
  simp only [lookup, Option.map_eq_none_iff, List.find?_eq_none, decide_eq_true_eq, List.mem_map, not_exists,
    not_and]

/-- Where names are distinct, each finds its own value. -/
theorem Value.lookup_of_mem {fields : List (String × Value)} (hnames : (fields.map Prod.fst).Nodup)
    {p : String × Value} (hp : p ∈ fields) : lookup p.1 fields = some p.2 := by
  induction fields with
  | nil => cases hp
  | cons q rest ih =>
    rw [List.map_cons, List.nodup_cons] at hnames
    rcases List.mem_cons.mp hp with rfl | hp
    · simp [lookup]
    · have hne : q.1 ≠ p.1 := fun heq => hnames.1 (heq ▸ List.mem_map_of_mem hp)
      have hrest : lookup p.1 (q :: rest) = lookup p.1 rest := by simp [lookup, hne]
      rw [hrest, ih hnames.2 hp]

section Bounds

variable {α β ε : Type} {f : α → Except ε β} {undo : β → Except ε α}

private theorem Bound.mapM_undoes {a : Bound α} (h : ∀ x ∈ a.values, ∃ y, f x = .ok y ∧ undo y = .ok x) :
    ∃ b, a.mapM f = .ok b ∧ b.mapM undo = .ok a := by
  cases a with
  | unbounded => exact ⟨.unbounded, rfl, rfl⟩
  | inclusive x =>
    obtain ⟨y, hy, hundo⟩ := h x List.mem_cons_self
    exact ⟨.inclusive y, by rw [mapM, hy, ok_map], by rw [mapM, hundo, ok_map]⟩
  | exclusive x =>
    obtain ⟨y, hy, hundo⟩ := h x List.mem_cons_self
    exact ⟨.exclusive y, by rw [mapM, hy, ok_map], by rw [mapM, hundo, ok_map]⟩

private theorem Bound.mapM_values {a : Bound α} {b : Bound β} (h : a.mapM f = .ok b) :
    List.Forall₂ (fun x y => f x = .ok y) a.values b.values := by
  cases a with
  | unbounded =>
    cases h
    exact .nil
  | inclusive x | exclusive x =>
    obtain ⟨y, hy, rfl⟩ := map_eq_ok.mp h
    exact .cons hy .nil

namespace Range

/-- What is undone for each bound is undone for the range. -/
theorem mapM_undoes {r : Range α} (h : ∀ a ∈ r.bounds, ∃ b, f a = .ok b ∧ undo b = .ok a) :
    ∃ r', r.mapM f = .ok r' ∧ r'.mapM undo = .ok r := by
  cases r with
  | empty => exact ⟨.empty, rfl, rfl⟩
  | between lower upper =>
    obtain ⟨lower', hlower, hlower'⟩ := Bound.mapM_undoes fun a ha => h a (List.mem_append_left _ ha)
    obtain ⟨upper', hupper, hupper'⟩ := Bound.mapM_undoes fun a ha => h a (List.mem_append_right _ ha)
    refine ⟨.between lower' upper', ?_, ?_⟩
    · rw [mapM, hlower, hupper]; rfl
    · rw [mapM, hlower', hupper']; rfl

/-- The bounds of a range are transformed one by one. -/
theorem mapM_bounds {r : Range α} {r' : Range β} (h : r.mapM f = .ok r') :
    List.Forall₂ (fun a b => f a = .ok b) r.bounds r'.bounds := by
  cases r with
  | empty =>
    cases h
    exact .nil
  | between lower upper =>
    obtain ⟨lower', hlower, h⟩ := bind_eq_ok.mp h
    obtain ⟨upper', hupper, h⟩ := bind_eq_ok.mp h
    cases h
    exact List.rel_append (Bound.mapM_values hlower) (Bound.mapM_values hupper)

theorem mapM_mem {r : Range α} {r' : Range β} (h : r.mapM f = .ok r') {b : β} (hb : b ∈ r'.bounds) :
    ∃ a ∈ r.bounds, f a = .ok b := by
  obtain ⟨a, hmem, ha⟩ := forall₂_mem_right (mapM_bounds h) hb
  exact ⟨a, (List.of_mem_zip hmem).1, ha⟩

end Range

end Bounds

namespace TypeDescriptor

/-- A value can be written in a type, and reads back as it is. -/
def RoundTrips (d : TypeDescriptor) (v : Value) : Prop := ∃ w, d.encode v = .ok w ∧ d.decode w = .ok v

variable {d : TypeDescriptor}

theorem roundTrips_null (d : TypeDescriptor) : d.RoundTrips .null :=
  ⟨.null, d.encode_null, d.decode_null⟩

theorem roundTrips_unknown (hkind : d.kind = .unknown) (s : Scalar) : d.RoundTrips (.scalar s) :=
  ⟨.scalar s, by rw [encode_unknown hkind]; rfl, (decode_unknown hkind (by nofun)).mpr ⟨s, rfl, rfl⟩⟩

theorem roundTrips_base {b : BaseType} (hkind : d.kind = .base b) {s : Scalar}
    (hs : s.native = b.native) : d.RoundTrips (.scalar s) :=
  ⟨.scalar s, encode_base hkind hs,
    (decode_base hkind (by nofun)).mpr ⟨s, s, rfl, hs ▸ s.coerce_self, rfl⟩⟩

theorem roundTrips_enum {labels : List String} (hkind : d.kind = .enum labels) {label : String}
    (hlabel : label ∈ labels) : d.RoundTrips (.enum label) :=
  ⟨.text label, encode_enum hkind hlabel, (decode_enum hkind (by nofun)).mpr ⟨label, hlabel, rfl, rfl⟩⟩

theorem roundTrips_domain {base : TypeRef} (hkind : d.kind = .domain base) {v : Value} (hv : v ≠ .null)
    (h : base.descriptor.RoundTrips v) : d.RoundTrips (.domain v) := by
  obtain ⟨w, hencode, hdecode⟩ := h
  have hw : w ≠ .null := fun hnull => hv ((decode_null_iff hdecode).mpr hnull)
  exact ⟨w, by rw [encode_domain hkind, hencode], (decode_domain hkind hw).mpr ⟨v, hdecode, rfl⟩⟩

/-- A field of a record under the name of a field of the type, null only where that may be. -/
def FieldRoundTrips (f : Field) (p : String × Value) : Prop :=
  p.1 = f.name ∧ (p.2 = .null → f.type.nullable = true) ∧ f.type.descriptor.RoundTrips p.2

private theorem fieldsRoundTrip (name : String) {given rest : List (String × Value)}
    {fields : List Field} (h : List.Forall₂ FieldRoundTrips fields rest)
    (hlookup : ∀ p ∈ rest, Value.lookup p.1 given = some p.2) :
    ∃ ws, ws.length = fields.length ∧ encodeFields name given fields = .ok ws ∧
      decodeFields name fields ws = .ok rest := by
  induction h with
  | nil => exact ⟨[], rfl, rfl, rfl⟩
  | @cons f p fields rest hf _ ih =>
    obtain ⟨hp, hrest⟩ := List.forall_mem_cons.mp hlookup
    obtain ⟨ws, hlength, hencode, hdecode⟩ := ih hrest
    obtain ⟨hname, hnull, w, hwrite, hread⟩ := hf
    refine ⟨w :: ws, by simp [hlength], encodeFields_cons (hname ▸ hp) hnull hwrite hencode, ?_⟩
    rw [decodeFields_cons hnull hread hdecode, ← hname]

theorem roundTrips_composite {fields : List Field} (hkind : d.kind = .composite fields)
    (hnames : (fields.map Field.name).Nodup) {given : List (String × Value)}
    (h : List.Forall₂ FieldRoundTrips fields given) : d.RoundTrips (.record given) := by
  have hgiven : given.map Prod.fst = fields.map Field.name := by
    rw [← List.forall₂_eq_eq_eq, List.forall₂_map_left_iff, List.forall₂_map_right_iff]
    exact h.flip.imp fun _ _ hf => hf.1
  -- distinct names: each field finds its own value among those given
  obtain ⟨ws, hlength, hencode, hdecode⟩ := fieldsRoundTrip d.name h fun p hp =>
    Value.lookup_of_mem (hgiven ▸ hnames) hp
  refine ⟨.record ws, ?_, (decode_composite hkind (by nofun)).mpr ⟨ws, given, rfl, rfl, hlength, hdecode⟩⟩
  rw [encode_composite hkind hgiven, hencode, ok_map]

/-- An item of an array reads back as it is if all its elements do. -/
theorem item_roundTrips (element : String) {v : Value}
    (h : ∀ x ∈ v.elements, x.wrapsArray = false ∧ d.RoundTrips x) :
    ∃ w, v.encodeItem element d.encode = .ok w ∧ w.decodeItem d.decode = .ok v := by
  induction v using Value.induction with
  | array items ih =>
    rw [Value.elements_array] at h
    obtain ⟨ws, hencode, hdecode⟩ := mapM_undoes fun v hv =>
      ih v hv fun x hx => h x (List.mem_flatMap.mpr ⟨v, hv, hx⟩)
    refine ⟨.array element ws, ?_, ?_⟩
    · rw [Value.encodeItem, Value.encodeItems_eq, hencode, ok_map]
    · rw [Wire.decodeItem, Wire.decodeItems_eq, hdecode, ok_map]
  | _ =>
    obtain ⟨hwraps, w, hencode, hdecode⟩ := h _ (List.mem_singleton.mpr rfl)
    have hw : w.isArray = false := by
      cases w with
      | array element items => simp [encode_wraps hencode] at hwraps
      | _ => rfl
    exact ⟨w, hencode, by rw [Wire.decodeItem_eq hw, hdecode]⟩

theorem roundTrips_array {element : TypeRef} (hkind : d.kind = .array element) {items : List Value}
    (h : ∀ x ∈ Value.allElements items, x.wrapsArray = false ∧ element.descriptor.RoundTrips x) :
    d.RoundTrips (.array items) := by
  obtain ⟨ws, hencode, hdecode⟩ := mapM_undoes fun v hv =>
    item_roundTrips element.name fun x hx => h x (by
      rw [Value.allElements_eq]
      exact List.mem_flatMap.mpr ⟨v, hv, hx⟩)
  refine ⟨.array element.name ws, ?_, (decode_array hkind (by nofun)).mpr ⟨_, ws, items, rfl, rfl, hdecode⟩⟩
  rw [encode_array hkind, hencode, ok_map]

theorem roundTrips_range {subtype : TypeRef} (hkind : d.kind = .range subtype) {r : Range Value}
    (h : ∀ v ∈ r.bounds, subtype.descriptor.RoundTrips v) : d.RoundTrips (.range r) := by
  obtain ⟨r', hencode, hdecode⟩ := Range.mapM_undoes h
  refine ⟨.range r', ?_, (decode_range hkind (by nofun)).mpr ⟨r', r, rfl, rfl, hdecode⟩⟩
  rw [encode_range hkind, hencode, ok_map]

end TypeDescriptor

end TypedSql

import TypedSql.Proofs.Conversion.RoundTrip

/-! The inhabitants of types: whatever is read in a type inhabits it at every depth, and inhabitants read
back as they were written. -/
namespace TypedSql

/-- A kind of type whose fields, if it has any, have distinct names. -/
def TypeKind.NamesDistinct : TypeKind → Prop
  | .composite fields => (fields.map Field.name).Nodup
  | _ => True

/-- The values of a type that are not null. A domain wraps a value once; a record has the fields of its
type in their order, null only where a field may be; an array holds nulls, inhabitants of its element type
that are no arrays in domains, and arrays of these, to any depth and of any lengths; and the bounds of a
range are nulls or inhabitants of its subtype. -/
inductive TypeKind.Inhabits : TypeKind → Value → Prop
  | unknown (s : Scalar) : Inhabits .unknown (.scalar s)
  | base {b : BaseType} {s : Scalar} (hnative : s.native = b.native) : Inhabits (.base b) (.scalar s)
  | enum {labels : List String} {label : String} (hlabel : label ∈ labels) :
    Inhabits (.enum labels) (.enum label)
  | domain {base : TypeRef} {v : Value} (hv : base.kind.Inhabits v) : Inhabits (.domain base) (.domain v)
  | composite {fields : List Field} {given : List (String × Value)}
    (hnames : given.map Prod.fst = fields.map Field.name)
    (hnulls : ∀ f name, (f, name, Value.null) ∈ fields.zip given → f.type.nullable = true)
    (hvalues : ∀ f name v, (f, name, v) ∈ fields.zip given → v ≠ .null → f.type.kind.Inhabits v) :
    Inhabits (.composite fields) (.record given)
  | array {element : TypeRef} {items : List Value}
    (hplain : ∀ v ∈ Value.allElements items, v.wrapsArray = false)
    (helements : ∀ v ∈ Value.allElements items, v ≠ .null → element.kind.Inhabits v) :
    Inhabits (.array element) (.array items)
  | range {subtype : TypeRef} {r : Range Value}
    (hbounds : ∀ v ∈ r.bounds, v ≠ .null → subtype.kind.Inhabits v) : Inhabits (.range subtype) (.range r)

namespace TypeKind.Inhabits

variable {kind : TypeKind} {v : Value} {d : TypeDescriptor}

theorem ne_null (h : kind.Inhabits v) : v ≠ .null := by
  rintro rfl
  cases h

/-- Null reads back in every type, so a part that may be null has to be looked at only where it is not. -/
private theorem part_roundTrips {t : TypeRef} (ht : t ∈ d.kind.parts)
    (hnames : ∀ p ∈ d.types, p.kind.NamesDistinct)
    (h : v ≠ .null → (∀ p ∈ t.descriptor.types, p.kind.NamesDistinct) → t.descriptor.RoundTrips v) :
    t.descriptor.RoundTrips v := by
  by_cases hv : v = .null
  · exact hv ▸ t.descriptor.roundTrips_null
  · exact h hv fun p hp => hnames p (d.types_subset ht hp)

theorem roundTrips (h : kind.Inhabits v) (hkind : d.kind = kind)
    (hnames : ∀ p ∈ d.types, p.kind.NamesDistinct) : d.RoundTrips v := by
  induction h generalizing d with
  | unknown s => exact d.roundTrips_unknown hkind s
  | base hnative => exact d.roundTrips_base hkind hnative
  | enum hlabel => exact d.roundTrips_enum hkind hlabel
  | @domain base v hv ih =>
    have hpart : base ∈ d.kind.parts := by simp [hkind, TypeKind.parts]
    exact d.roundTrips_domain hkind hv.ne_null (part_roundTrips hpart hnames fun _ => ih rfl)
  | @composite fields given hgiven hnulls _ ih =>
    have hdistinct := hnames d d.self_mem_types
    rw [hkind] at hdistinct
    rw [← List.forall₂_eq_eq_eq, List.forall₂_map_left_iff, List.forall₂_map_right_iff] at hgiven
    obtain ⟨hlength, hgiven⟩ := List.forall₂_iff_zip.mp hgiven.flip
    refine d.roundTrips_composite hkind hdistinct (List.forall₂_iff_zip.mpr ⟨hlength, ?_⟩)
    rintro f ⟨name, v⟩ hmem
    have hpart : f.type ∈ d.kind.parts := by
      simpa [hkind, TypeKind.parts] using ⟨f, (List.of_mem_zip hmem).1, rfl⟩
    refine ⟨hgiven hmem, ?_, part_roundTrips hpart hnames fun hv => ih f name v hmem hv rfl⟩
    rintro rfl
    exact hnulls f name hmem
  | @array element items hplain _ ih =>
    have hpart : element ∈ d.kind.parts := by simp [hkind, TypeKind.parts]
    refine d.roundTrips_array hkind fun v hv => ⟨hplain v hv, ?_⟩
    exact part_roundTrips hpart hnames fun hne => ih v hv hne rfl
  | @range subtype r _ ih =>
    have hpart : subtype ∈ d.kind.parts := by simp [hkind, TypeKind.parts]
    exact d.roundTrips_range hkind fun v hv => part_roundTrips hpart hnames fun hne => ih v hv hne rfl

end TypeKind.Inhabits

/-- What is read in a type is null or inhabits it. -/
theorem TypeDescriptor.decode_inhabits {d : TypeDescriptor} {w : Wire} {v : Value} (h : d.decode w = .ok v)
    (hv : v ≠ .null) : d.kind.Inhabits v := by
  induction d using TypeDescriptor.induction generalizing w v with
  | step d ih =>
    have hw : w ≠ .null := fun hnull => hv ((decode_null_iff h).mpr hnull)
    cases hkind : d.kind with
    | unknown =>
      obtain ⟨s, -, rfl⟩ := (decode_unknown hkind hw).mp h
      exact .unknown s
    | base b =>
      obtain ⟨s, s', -, hs, rfl⟩ := (decode_base hkind hw).mp h
      exact .base (Scalar.coerce_native hs)
    | enum labels =>
      obtain ⟨label, hlabel, -, rfl⟩ := (decode_enum hkind hw).mp h
      exact .enum hlabel
    | domain base =>
      obtain ⟨inner, hinner, rfl⟩ := (decode_domain hkind hw).mp h
      refine .domain (ih base (by simp [hkind, TypeKind.parts]) hinner ?_)
      rintro rfl
      exact hw (decode_eq_null hinner)
    | composite fields =>
      obtain ⟨ws, given, -, rfl, hlength, hgiven⟩ := (decode_composite hkind hw).mp h
      have hread := decodeFields_ok hlength hgiven
      refine .composite ?_ (fun f name hmem => ?_) fun f name v hmem hne => ?_
      · rw [← List.forall₂_eq_eq_eq, List.forall₂_map_left_iff, List.forall₂_map_right_iff]
        exact hread.flip.imp fun _ _ hf => hf.1
      · exact (List.forall₂_zip hread hmem).2.1 rfl
      · obtain ⟨-, -, w, hw⟩ := List.forall₂_zip hread hmem
        refine ih f.type ?_ hw hne
        simpa [hkind, TypeKind.parts] using ⟨f, (List.of_mem_zip hmem).1, rfl⟩
    | array element =>
      obtain ⟨name, ws, items, -, rfl, hitems⟩ := (decode_array hkind hw).mp h
      -- nested arrays are further dimensions, so no element is read from an array
      have hread : ∀ x ∈ Value.allElements items,
          ∃ w, w.isArray = false ∧ element.descriptor.decode w = .ok x := by
        intro x hx
        rw [Value.allElements_eq] at hx
        obtain ⟨item, hitem, hx⟩ := List.mem_flatMap.mp hx
        obtain ⟨w, -, hw⟩ := mapM_mem hitems hitem
        exact Wire.decodeItem_elements (fun w items h => decode_wraps h rfl) hw x hx
      refine .array (fun x hx => ?_) fun x hx hne => ?_
      · obtain ⟨w, hplain, hw⟩ := hread x hx
        by_contra hwraps
        rw [decode_wraps hw (by simpa using hwraps)] at hplain
        cases hplain
      · obtain ⟨w, -, hw⟩ := hread x hx
        exact ih element (by simp [hkind, TypeKind.parts]) hw hne
    | range subtype =>
      obtain ⟨r, r', -, rfl, hr⟩ := (decode_range hkind hw).mp h
      refine .range fun v hv hne => ?_
      obtain ⟨w, -, hw⟩ := Range.mapM_mem hr hv
      exact ih subtype (by simp [hkind, TypeKind.parts]) hw hne

end TypedSql

import TypedSql.Proofs.Conversion.RoundTrip
import TypedSql.Proofs.Conversion.Writing

/-! Fields of composite types at every depth of a value: what is sent for each, and where it is null. -/
namespace TypedSql

mutual

/-- What a value is made of when its arrays and domains are taken away. -/
def Value.leaves : Value → List Value
  | .array items => Value.allLeaves items
  | .domain inner => inner.leaves
  | v => [v]

def Value.allLeaves : List Value → List Value
  | [] => []
  | v :: rest => v.leaves ++ Value.allLeaves rest

end

mutual

/-- What a protocol value is made of when its arrays are taken away. -/
def Wire.leaves : Wire → List Wire
  | .array _ items => Wire.allLeaves items
  | w => [w]

def Wire.allLeaves : List Wire → List Wire
  | [] => []
  | w :: rest => w.leaves ++ Wire.allLeaves rest

end

theorem Value.allLeaves_eq (items : List Value) : allLeaves items = items.flatMap leaves := by
  induction items with
  | nil => rfl
  | cons v rest ih => rw [allLeaves, ih, List.flatMap_cons]

theorem Wire.allLeaves_eq (items : List Wire) : allLeaves items = items.flatMap leaves := by
  induction items with
  | nil => rfl
  | cons w rest ih => rw [allLeaves, ih, List.flatMap_cons]

/-- The kinds of type that add no leaf of their own to what is sent. -/
def TypeKind.groups : TypeKind → Bool
  | .array _ | .domain _ => true
  | _ => false

/-- The type beneath arrays and domains, which is that of the leaves. -/
def TypeDescriptor.core : TypeDescriptor → TypeDescriptor
  | ⟨_, _, _, _, .array ⟨element, _⟩, _⟩ => element.core
  | ⟨_, _, _, _, .domain ⟨base, _⟩, _⟩ => base.core
  | d => d

namespace Value

theorem leaves_unwrapped (v : Value) : v.unwrapped.leaves = v.leaves := by
  cases v with
  | domain inner => rw [unwrapped, leaves]
  | _ => rfl

theorem encodeUntyped_leaves {v : Value} {w : Wire} (h : v.encodeUntyped = .ok w) :
    List.Forall₂ (fun x y => x.encodeUntyped = .ok y) v.leaves w.leaves := by
  induction v using encodeUntyped.induct with
  | case1 | case2 s | case3 label =>
    cases h
    exact .cons rfl .nil
  | case4 inner ih =>
    rw [encodeUntyped] at h
    rw [leaves]
    exact ih h
  | case5 items => cases h
  | case6 v => simp_all [encodeUntyped]

/-- The leaves of an item of an array are written one by one if those of its elements are. -/
theorem encodeItem_leaves {element : String} {encode encodeLeaf : Value → Except Error Wire} {v : Value}
    {w : Wire} (hencode : ∀ v w, encode v = .ok w →
      List.Forall₂ (fun x y => encodeLeaf x = .ok y) v.leaves w.leaves)
    (h : v.encodeItem element encode = .ok w) :
    List.Forall₂ (fun x y => encodeLeaf x = .ok y) v.leaves w.leaves := by
  induction v using Value.induction generalizing w with
  | array items ih =>
    rw [encodeItem, encodeItems_eq] at h
    obtain ⟨ws, hws, rfl⟩ := map_eq_ok.mp h
    obtain ⟨hlength, hitems⟩ := List.forall₂_iff_zip.mp (mapM_eq_ok.mp hws)
    have hleaves : List.Forall₂ (fun (v : Value) (w : Wire) =>
        List.Forall₂ (fun x y => encodeLeaf x = .ok y) v.leaves w.leaves) items ws := by
      refine List.forall₂_iff_zip.mpr ⟨hlength, fun {v w} hmem => ?_⟩
      exact ih v (List.of_mem_zip hmem).1 (hitems hmem)
    rw [leaves, allLeaves_eq, Wire.leaves, Wire.allLeaves_eq]
    exact List.rel_flatMap hleaves fun _ _ h => h
  | _ => exact hencode _ w h

end Value

namespace TypeDescriptor

variable {d : TypeDescriptor} {v : Value} {w : Wire}

theorem core_array {element : TypeRef} (hkind : d.kind = .array element) :
    d.core = element.descriptor.core := by
  obtain ⟨_, _, _, _, _, _⟩ := d
  obtain ⟨_, _⟩ := element
  cases hkind
  rw [core]

theorem core_domain {base : TypeRef} (hkind : d.kind = .domain base) : d.core = base.descriptor.core := by
  obtain ⟨_, _, _, _, _, _⟩ := d
  obtain ⟨_, _⟩ := base
  cases hkind
  rw [core]

theorem core_eq (hkind : d.kind.groups = false) : d.core = d := by
  obtain ⟨_, _, _, _, kind, _⟩ := d
  cases kind with
  | array element => cases hkind
  | domain base => cases hkind
  | _ => rw [core] <;> nofun

/-- Arrays and domains only group: the leaves of a value are sent as the leaves of what is sent, each as
the type beneath the arrays and domains writes it. -/
theorem encode_leaves (h : d.encode v = .ok w) :
    List.Forall₂ (fun x y => d.core.encode x = .ok y) v.leaves w.leaves := by
  induction d using TypeDescriptor.induction generalizing v w with
  | step d ih =>
    by_cases hv : v = .null
    · subst hv
      rw [encode_null] at h
      cases h
      exact .cons d.core.encode_null .nil
    · cases hkind : d.kind with
      | domain base =>
        rw [encode_unwrapped hkind] at h
        rw [core_domain hkind, ← v.leaves_unwrapped]
        exact ih base (by simp [hkind, TypeKind.parts]) h
      | array element =>
        rw [core_array hkind]
        obtain ⟨items, ws, rfl, rfl, hws⟩ := (encode_array_iff hkind hv).mp h
        have hitem : (Value.array items).encodeItem element.name element.descriptor.encode =
            .ok (.array element.name ws) := by
          rw [Value.encodeItem, Value.encodeItems_eq, hws, ok_map]
        refine Value.encodeItem_leaves (fun v w h => ?_) hitem
        exact ih element (by simp [hkind, TypeKind.parts]) h
      | unknown =>
        rw [core_eq (by rw [hkind]; rfl)]
        simp only [encode_unknown hkind] at h ⊢
        exact Value.encodeUntyped_leaves h
      | base b =>
        rw [core_eq (by rw [hkind]; rfl)]
        obtain ⟨s, s', rfl, -, rfl⟩ := (encode_base_iff hkind hv).mp h
        exact .cons h .nil
      | enum labels =>
        rw [core_eq (by rw [hkind]; rfl)]
        obtain ⟨label, -, rfl | rfl, rfl⟩ := (encode_enum_iff hkind hv).mp h
        · exact .cons h .nil
        · exact .cons h .nil
      | composite fields =>
        rw [core_eq (by rw [hkind]; rfl)]
        obtain ⟨given, ws, rfl, rfl, -⟩ := (encode_composite_iff hkind hv).mp h
        exact .cons h .nil
      | range subtype =>
        rw [core_eq (by rw [hkind]; rfl)]
        obtain ⟨r, r', rfl, rfl, -⟩ := (encode_range_iff hkind hv).mp h
        exact .cons h .nil

/-- A field of a composite type somewhere in a value, and what is supplied for it there, if anything. -/
inductive FieldGiven : TypeDescriptor → Value → Field → Option Value → Prop
  | here {d : TypeDescriptor} {v : Value} {fields : List Field} {given : List (String × Value)} {f : Field}
    (hcore : d.core.kind = .composite fields) (hleaf : .record given ∈ v.leaves) (hf : f ∈ fields) :
    FieldGiven d v f (Value.lookup f.name given)
  | within {d : TypeDescriptor} {v : Value} {fields : List Field} {given : List (String × Value)}
    {f g : Field} {u : Value} {o : Option Value} (hcore : d.core.kind = .composite fields)
    (hleaf : .record given ∈ v.leaves) (hf : f ∈ fields) (hu : Value.lookup f.name given = some u)
    (h : FieldGiven f.type.descriptor u g o) : FieldGiven d v g o
  | bound {d : TypeDescriptor} {v : Value} {subtype : TypeRef} {r : Range Value} {b : Value} {g : Field}
    {o : Option Value} (hcore : d.core.kind = .range subtype) (hleaf : .range r ∈ v.leaves)
    (hb : b ∈ r.bounds) (h : FieldGiven subtype.descriptor b g o) : FieldGiven d v g o

/-- A field of a composite type somewhere in what is sent, and what stands there. -/
inductive FieldSent : TypeDescriptor → Wire → Field → Wire → Prop
  | here {d : TypeDescriptor} {w : Wire} {fields : List Field} {ws : List Wire} {f : Field} {x : Wire}
    (hcore : d.core.kind = .composite fields) (hleaf : .record ws ∈ w.leaves) (hx : (f, x) ∈ fields.zip ws) :
    FieldSent d w f x
  | within {d : TypeDescriptor} {w : Wire} {fields : List Field} {ws : List Wire} {f g : Field} {x y : Wire}
    (hcore : d.core.kind = .composite fields) (hleaf : .record ws ∈ w.leaves) (hx : (f, x) ∈ fields.zip ws)
    (h : FieldSent f.type.descriptor x g y) : FieldSent d w g y
  | bound {d : TypeDescriptor} {w : Wire} {subtype : TypeRef} {r : Range Wire} {b : Wire} {g : Field}
    {y : Wire} (hcore : d.core.kind = .range subtype) (hleaf : .range r ∈ w.leaves) (hb : b ∈ r.bounds)
    (h : FieldSent subtype.descriptor b g y) : FieldSent d w g y

variable {d : TypeDescriptor} {v : Value} {w : Wire} {f : Field}

section Leaves

variable {fields : List Field} {subtype : TypeRef} {given : List (String × Value)} {ws : List Wire}
  {r : Range Value} {r' : Range Wire}

private theorem leaf_sent (h : d.encode v = .ok w) (hcore : d.core.kind = .composite fields)
    (hleaf : .record ws ∈ w.leaves) : ∃ given, .record given ∈ v.leaves ∧
      List.Forall₂ (fun f x => f.Sends (Value.lookup f.name given) x) fields ws := by
  obtain ⟨u, hmem, hu⟩ := forall₂_mem_right (encode_leaves h) hleaf
  obtain ⟨given, _, rfl, ⟨⟩, -, hws⟩ := (encode_composite_iff hcore (encode_ne_null hu nofun)).mp hu
  exact ⟨given, (List.of_mem_zip hmem).1, encodeFields_eq_ok.mp hws⟩

private theorem leaf_given (h : d.encode v = .ok w) (hcore : d.core.kind = .composite fields)
    (hleaf : .record given ∈ v.leaves) : ∃ ws, .record ws ∈ w.leaves ∧
      List.Forall₂ (fun f x => f.Sends (Value.lookup f.name given) x) fields ws := by
  obtain ⟨x, hmem, hx⟩ := forall₂_mem_left (encode_leaves h) hleaf
  obtain ⟨_, ws, ⟨⟩, rfl, -, hws⟩ := (encode_composite_iff hcore (by nofun)).mp hx
  exact ⟨ws, (List.of_mem_zip hmem).2, encodeFields_eq_ok.mp hws⟩

private theorem range_sent (h : d.encode v = .ok w) (hcore : d.core.kind = .range subtype)
    (hleaf : .range r' ∈ w.leaves) : ∃ r, .range r ∈ v.leaves ∧
      List.Forall₂ (fun a b => subtype.descriptor.encode a = .ok b) r.bounds r'.bounds := by
  obtain ⟨u, hmem, hu⟩ := forall₂_mem_right (encode_leaves h) hleaf
  obtain ⟨r, _, rfl, ⟨⟩, hr⟩ := (encode_range_iff hcore (encode_ne_null hu nofun)).mp hu
  exact ⟨r, (List.of_mem_zip hmem).1, Range.mapM_bounds hr⟩

private theorem range_given (h : d.encode v = .ok w) (hcore : d.core.kind = .range subtype)
    (hleaf : .range r ∈ v.leaves) : ∃ r', .range r' ∈ w.leaves ∧
      List.Forall₂ (fun a b => subtype.descriptor.encode a = .ok b) r.bounds r'.bounds := by
  obtain ⟨x, hmem, hx⟩ := forall₂_mem_left (encode_leaves h) hleaf
  obtain ⟨_, r', ⟨⟩, rfl, hr⟩ := (encode_range_iff hcore (by nofun)).mp hx
  exact ⟨r', (List.of_mem_zip hmem).2, Range.mapM_bounds hr⟩

end Leaves

/-- There are no fields in a null. -/
theorem FieldSent.ne_null {x : Wire} (h : FieldSent d w f x) : w ≠ .null := by
  rintro rfl
  cases h <;> simp_all [Wire.leaves]

/-- What stands at a field of what is sent is what the field sends for a value supplied for it. -/
theorem FieldSent.given {x : Wire} (hsent : FieldSent d w f x) (h : d.encode v = .ok w) :
    ∃ o, FieldGiven d v f o ∧ f.Sends o x := by
  induction hsent generalizing v with
  | here hcore hleaf hx =>
    obtain ⟨given, hgiven, hfields⟩ := leaf_sent h hcore hleaf
    exact ⟨_, .here hcore hgiven (List.of_mem_zip hx).1, List.forall₂_zip hfields hx⟩
  | within hcore hleaf hx hwithin ih =>
    obtain ⟨given, hgiven, hfields⟩ := leaf_sent h hcore hleaf
    have hsends := List.forall₂_zip hfields hx
    generalize ho : Value.lookup _ given = o at hsends
    cases hsends with
    | supplied _ hu =>
      obtain ⟨o, hinner, hsends⟩ := ih hu
      exact ⟨o, .within hcore hgiven (List.of_mem_zip hx).1 ho hinner, hsends⟩
    | omitted _ => exact absurd rfl hwithin.ne_null
  | bound hcore hleaf hb _ ih =>
    obtain ⟨r, hr, hbounds⟩ := range_sent h hcore hleaf
    obtain ⟨b, hmem, hencode⟩ := forall₂_mem_right hbounds hb
    obtain ⟨o, hinner, hsends⟩ := ih hencode
    exact ⟨o, .bound hcore hr (List.of_mem_zip hmem).1 hinner, hsends⟩

/-- What is supplied for a field somewhere in a value is sent for it. -/
theorem FieldGiven.sent {o : Option Value} (hgiven : FieldGiven d v f o) (h : d.encode v = .ok w) :
    ∃ x, FieldSent d w f x ∧ f.Sends o x := by
  induction hgiven generalizing w with
  | here hcore hleaf hf =>
    obtain ⟨ws, hws, hfields⟩ := leaf_given h hcore hleaf
    obtain ⟨x, hx, hsends⟩ := forall₂_mem_left hfields hf
    exact ⟨x, .here hcore hws hx, hsends⟩
  | within hcore hleaf hf hu _ ih =>
    obtain ⟨ws, hws, hfields⟩ := leaf_given h hcore hleaf
    obtain ⟨x, hx, hsends⟩ := forall₂_mem_left hfields hf
    rw [hu, Field.sends_some] at hsends
    obtain ⟨y, hinner, hy⟩ := ih hsends.2
    exact ⟨y, .within hcore hws hx hinner, hy⟩
  | bound hcore hleaf hb _ ih =>
    obtain ⟨r', hr', hbounds⟩ := range_given h hcore hleaf
    obtain ⟨x, hmem, hencode⟩ := forall₂_mem_left hbounds hb
    obtain ⟨y, hinner, hy⟩ := ih hencode
    exact ⟨y, .bound hcore hr' (List.of_mem_zip hmem).2 hinner, hy⟩

end TypeDescriptor

namespace TypeRef

/-- In what is sent for a value, the fields of composite types, at every depth, have what they send for
the values supplied for them. A field that must not be null has a null there if, and only if, the value
supplied for it somewhere is a null in domains; a bare null, or none, is refused. -/
theorem fields_sent {t : TypeRef} {v : Value} {w : Wire} (h : t.encode v = .ok w) :
    (∀ f x, t.descriptor.FieldSent w f x → ∃ o, t.descriptor.FieldGiven v f o ∧ f.Sends o x) ∧
    (∀ f o, t.descriptor.FieldGiven v f o → ∃ x, t.descriptor.FieldSent w f x ∧ f.Sends o x) ∧
    ∀ f, f.type.nullable = false → (t.descriptor.FieldSent w f .null ↔
      ∃ inner, t.descriptor.FieldGiven v f (some (.domain inner)) ∧ inner.isHollow = true) := by
  refine ⟨fun f x hsent => hsent.given h, fun f o hgiven => hgiven.sent h, fun f hnull => ?_⟩
  constructor
  · intro hsent
    obtain ⟨o, hgiven, hsends⟩ := hsent.given h
    have hhollow := hsends.eq_null.mp rfl
    cases hsends with
    | omitted hnullable => simp [hnull] at hnullable
    | @supplied u _ hbare _ =>
      cases u with
      | null => simp [hnull] at hbare
      | domain inner => exact ⟨inner, hgiven, hhollow (.domain inner) rfl⟩
      | _ => cases hhollow _ rfl
  · rintro ⟨inner, hgiven, hhollow⟩
    obtain ⟨x, hsent, hsends⟩ := hgiven.sent h
    obtain rfl : x = .null := hsends.eq_null.mpr (by simpa [Value.isHollow] using hhollow)
    exact hsent

/-- A list of people: the contact of the one is a null in two domains, that of the other is supplied bare,
and a note is left out. -/
theorem fields_sent_people :
    let email : TypeRef := ⟨⟨1, "email", "public", none, .domain (.builtin .text false), 1⟩, true⟩
    let work : TypeRef := ⟨⟨2, "work_email", "public", none, .domain email, 2⟩, false⟩
    let contact : Field := ⟨"contact", work⟩
    let note : Field := ⟨"note", .builtin .text true⟩
    let person : TypeRef := ⟨⟨3, "person", "public", some 4, .composite [contact, note], 3⟩, true⟩
    let people : TypeRef := ⟨⟨4, "_person", "public", none, .array person, 4⟩, false⟩
    let v : Value := .array [.record [("contact", .domain (.domain .null)), ("note", .scalar (.text "x"))],
      .record [("contact", .scalar (.text "a@b"))]]
    let w : Wire := .array "person" [.record [.null, .text "x"], .record [.text "a@b", .null]]
    people.encode v = .ok w ∧ contact.type.nullable = false ∧ people.descriptor.FieldSent w contact .null ∧
      ∃ o, people.descriptor.FieldGiven v note o ∧ note.Sends o .null := by
  intro email work contact note person people v w
  have hencode : people.encode v = .ok w := by rfl
  obtain ⟨hsent, -, hnull⟩ := fields_sent hencode
  have hcore : people.descriptor.core.kind = .composite [contact, note] := rfl
  have hfirst : .record [("contact", .domain (.domain .null)), ("note", .scalar (.text "x"))] ∈ v.leaves :=
    List.mem_cons_self
  have hsecond : .record [.text "a@b", .null] ∈ w.leaves := List.mem_cons_of_mem _ List.mem_cons_self
  have hcontact : people.descriptor.FieldGiven v contact (some (.domain (.domain .null))) :=
    .here hcore hfirst List.mem_cons_self
  have hnote : people.descriptor.FieldSent w note .null :=
    .here hcore hsecond (List.mem_cons_of_mem _ List.mem_cons_self)
  exact ⟨hencode, rfl, (hnull contact rfl).mpr ⟨.domain .null, hcontact, rfl⟩, hsent note .null hnote⟩

/-- A contact that must not be null, supplied as a null in its domain, is sent as null, and what is sent
is not read back. -/
theorem null_in_domain_sent :
    let email : TypeRef := ⟨⟨1, "email", "public", none, .domain (.builtin .text false), 1⟩, false⟩
    let contact : Field := ⟨"contact", email⟩
    let person : TypeRef := ⟨⟨2, "person", "public", none, .composite [contact], 2⟩, false⟩
    let w : Wire := .record [.null]
    contact.type.nullable = false ∧ person.encode (.record [("contact", .domain .null)]) = .ok w ∧
      person.descriptor.FieldSent w contact .null ∧
      person.decode w = .error (.decode (.nullField "contact" "person")) := by
  intro email contact person w
  have hcore : person.descriptor.core.kind = .composite [contact] := rfl
  exact ⟨rfl, rfl, .here hcore List.mem_cons_self List.mem_cons_self, rfl⟩

end TypeRef
end TypedSql

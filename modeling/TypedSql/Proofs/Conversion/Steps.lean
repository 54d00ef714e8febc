import TypedSql.Conversion.Decode
import TypedSql.Conversion.Encode
import TypedSql.Proofs.Catalog.Tree
import TypedSql.Proofs.Outcome

/-! Writing and reading a value, one kind of type at a time. -/
namespace TypedSql

theorem Scalar.coerce_self (s : Scalar) : s.coerce s.native = some s := if_pos rfl

theorem Scalar.ofInt?_native {n : Int} {target : Native} {s : Scalar} (h : ofInt? n target = some s) :
    s.native = target := by
  cases target <;> simp [ofInt?] at h
  all_goals
    obtain ⟨-, rfl⟩ := h
    rfl

/-- A conversion gives a scalar of the form asked for. -/
theorem Scalar.coerce_native {s s' : Scalar} {target : Native} (h : s.coerce target = some s') :
    s'.native = target := by
  unfold coerce at h
  split at h
  · cases h
    assumption
  · split at h
    · exact ofInt?_native h
    · cases h
      rfl
    · cases h

namespace Value

@[simp] theorem isNull_iff {v : Value} : v.isNull = true ↔ v = .null := by
  cases v <;> simp [isNull]

/-- Whether a value is an array, wrappers of domains aside. -/
def wrapsArray : Value → Bool
  | .array _ => true
  | .domain inner => inner.wrapsArray
  | _ => false

theorem encodeItems_eq (element : String) (encode : Value → Except Error Wire) (items : List Value) :
    encodeItems element encode items = items.mapM (encodeItem element encode) := by
  induction items with
  | nil => rfl
  | cons v rest ih => rw [encodeItems, ih, List.mapM_cons]

theorem encodeUntyped_ne_array {v : Value} {element : String} {items : List Wire} :
    v.encodeUntyped ≠ .ok (.array element items) := by
  induction v using encodeUntyped.induct with
  | case4 inner ih => rwa [encodeUntyped]
  | _ => simp_all [encodeUntyped, Wire.text]

end Value

namespace Wire

@[simp] theorem isNull_iff {w : Wire} : w.isNull = true ↔ w = .null := by
  cases w <;> simp [isNull]

def isArray : Wire → Bool
  | .array _ _ => true
  | _ => false

theorem decodeItems_eq (decode : Wire → Except Error Value) (items : List Wire) :
    decodeItems decode items = items.mapM (decodeItem decode) := by
  induction items with
  | nil => rfl
  | cons w rest ih => rw [decodeItems, ih, List.mapM_cons]

theorem decodeItem_eq {w : Wire} (h : w.isArray = false) (decode : Wire → Except Error Value) :
    w.decodeItem decode = decode w := by
  cases w with
  | array element items => cases h
  | _ => rfl

end Wire

theorem strayName?_eq_none {fields : List Field} {given : List (String × Value)} :
    strayName? fields given = none ↔ given.map Prod.fst ⊆ fields.map Field.name := by
  simp [strayName?, List.subset_def]

namespace TypeDescriptor

variable {d : TypeDescriptor} {v : Value} {w : Wire}

attribute [simp] encode decode

@[simp] theorem encode_null (d : TypeDescriptor) : d.encode .null = .ok .null := by
  obtain ⟨_, _, _, _, _, _⟩ := d
  rw [encode.eq_def]
  rfl

@[simp] theorem decode_null (d : TypeDescriptor) : d.decode .null = .ok .null := by
  obtain ⟨_, _, _, _, _, _⟩ := d
  rw [decode.eq_def]
  rfl

section Writing

theorem encode_unknown (hkind : d.kind = .unknown) (v : Value) : d.encode v = v.encodeUntyped := by
  obtain ⟨_, _, _, _, kind, _⟩ := d
  cases hkind
  cases v <;> rfl

theorem encode_base {b : BaseType} (hkind : d.kind = .base b) {s : Scalar} (hs : s.native = b.native) :
    d.encode (.scalar s) = .ok (.scalar s) := by
  obtain ⟨_, _, _, _, kind, _⟩ := d
  cases hkind
  simp [Value.isNull, ← hs, s.coerce_self]

theorem encode_enum {labels : List String} (hkind : d.kind = .enum labels) {label : String}
    (hlabel : label ∈ labels) : d.encode (.enum label) = .ok (.text label) := by
  obtain ⟨_, _, _, _, kind, _⟩ := d
  cases hkind
  simp [Value.isNull, hlabel]

theorem encode_domain {base : TypeRef} (hkind : d.kind = .domain base) (v : Value) :
    d.encode (.domain v) = base.descriptor.encode v := by
  obtain ⟨_, _, _, _, kind, _⟩ := d
  obtain ⟨_, _⟩ := base
  cases hkind
  simp [Value.isNull]

theorem encode_composite {fields : List Field} (hkind : d.kind = .composite fields)
    {given : List (String × Value)} (hnames : given.map Prod.fst = fields.map Field.name) :
    d.encode (.record given) = .record <$> encodeFields d.name given fields := by
  obtain ⟨_, _, _, _, kind, _⟩ := d
  cases hkind
  have hstray : strayName? fields given = none := strayName?_eq_none.mpr (hnames ▸ List.Subset.refl _)
  simp [Value.isNull, hstray]

theorem encode_array {element : TypeRef} (hkind : d.kind = .array element) (items : List Value) :
    d.encode (.array items) =
      .array element.name <$> items.mapM (Value.encodeItem element.name element.descriptor.encode) := by
  obtain ⟨_, _, _, _, kind, _⟩ := d
  obtain ⟨_, _⟩ := element
  cases hkind
  rw [encode, Value.encodeItems_eq]
  rfl

theorem encode_range {subtype : TypeRef} (hkind : d.kind = .range subtype) (r : Range Value) :
    d.encode (.range r) = .range <$> r.mapM subtype.descriptor.encode := by
  obtain ⟨_, _, _, _, kind, _⟩ := d
  obtain ⟨_, _⟩ := subtype
  cases hkind
  rw [encode]
  rfl

/-- Only arrays, with or without wrappers of domains, are written as arrays. -/
theorem encode_wraps {element : String} {items : List Wire} (h : d.encode v = .ok (.array element items)) :
    v.wrapsArray = true := by
  induction d using TypeDescriptor.induction generalizing v with
  | step d ih =>
    obtain ⟨_, name, _, _, kind, _⟩ := d
    cases kind with
    | unknown =>
      rw [encode_unknown rfl] at h
      exact absurd h Value.encodeUntyped_ne_array
    | base b =>
      cases v with
      | scalar s => cases hs : s.coerce b.native <;> simp [Value.isNull, mismatched, hs] at h
      | _ => simp [Value.isNull, mismatched] at h
    | enum labels =>
      have hlabel (label : String) : (if labels.contains label then .ok (.text label)
          else mismatched (.labelOf name) (.label label)) ≠ Except.ok (Wire.array element items) := by
        split <;> simp [Wire.text, mismatched]
      cases v with
      | enum label => exact absurd h (hlabel label)
      | scalar s =>
        cases s with
        | text label => exact absurd h (hlabel label)
        | _ => simp [Value.isNull, mismatched] at h
      | _ => simp [Value.isNull, mismatched] at h
    | domain base =>
      obtain ⟨inner, nullable⟩ := base
      have hinner {v : Value} (h : inner.encode v = .ok (.array element items)) : v.wrapsArray = true :=
        ih ⟨inner, nullable⟩ (List.mem_singleton.mpr rfl) h
      cases v with
      | null => simp at h
      | domain v =>
        rw [encode_domain rfl] at h
        exact (hinner h : v.wrapsArray = true)
      | _ => exact hinner (by simpa [encode, Value.isNull] using h)
    | composite fields =>
      cases v with
      | record given =>
        cases hs : strayName? fields given <;>
          simp [Value.isNull, mismatched, hs, map_eq_ok] at h
      | _ => simp [Value.isNull, mismatched] at h
    | array t =>
      obtain ⟨_, _⟩ := t
      cases v with
      | array items => rfl
      | _ => simp [Value.isNull, mismatched] at h
    | range t =>
      obtain ⟨_, _⟩ := t
      cases v with
      | range r => simp [Value.isNull, map_eq_ok] at h
      | _ => simp [Value.isNull, mismatched] at h

end Writing

section Reading

theorem decode_unknown (hkind : d.kind = .unknown) (hw : w ≠ .null) :
    d.decode w = .ok v ↔ ∃ s, w = .scalar s ∧ v = .scalar s := by
  obtain ⟨_, _, _, _, kind, _⟩ := d
  cases hkind
  cases w <;> simp_all [Wire.isNull, undecodable, @eq_comm _ v]

theorem decode_base {b : BaseType} (hkind : d.kind = .base b) (hw : w ≠ .null) :
    d.decode w = .ok v ↔ ∃ s s', w = .scalar s ∧ s.coerce b.native = some s' ∧ v = .scalar s' := by
  obtain ⟨_, _, _, _, kind, _⟩ := d
  cases hkind
  cases w with
  | scalar s =>
    cases hs : s.coerce b.native <;> simp [Wire.isNull, undecodable, hs, @eq_comm _ v]
  | _ => simp_all [Wire.isNull, undecodable]

theorem decode_enum {labels : List String} (hkind : d.kind = .enum labels) (hw : w ≠ .null) :
    d.decode w = .ok v ↔ ∃ label ∈ labels, w = .text label ∧ v = .enum label := by
  obtain ⟨_, _, _, _, kind, _⟩ := d
  cases hkind
  cases w with
  | scalar s =>
    cases s with
    | text label =>
      by_cases hlabel : label ∈ labels <;>
        simp [Wire.isNull, Wire.text, undecodable, hlabel, @eq_comm _ v]
    | _ => simp [Wire.isNull, Wire.text, undecodable]
  | _ => simp_all [Wire.isNull, Wire.text, undecodable]

theorem decode_domain {base : TypeRef} (hkind : d.kind = .domain base) (hw : w ≠ .null) :
    d.decode w = .ok v ↔ ∃ inner, base.descriptor.decode w = .ok inner ∧ v = .domain inner := by
  obtain ⟨_, _, _, _, kind, _⟩ := d
  obtain ⟨_, _⟩ := base
  cases hkind
  rw [decode, if_neg (by simpa using hw), map_eq_ok]
  simp only [@eq_comm _ v]

theorem decode_composite {fields : List Field} (hkind : d.kind = .composite fields) (hw : w ≠ .null) :
    d.decode w = .ok v ↔ ∃ ws given, w = .record ws ∧ v = .record given ∧
      ws.length = fields.length ∧ decodeFields d.name fields ws = .ok given := by
  obtain ⟨_, _, _, _, kind, _⟩ := d
  cases hkind
  cases w with
  | record ws =>
    by_cases hlength : ws.length = fields.length <;>
      simp [Wire.isNull, hlength, undecodable, map_eq_ok, @eq_comm _ v, and_comm]
  | _ => simp_all [Wire.isNull, undecodable]

theorem decode_array {element : TypeRef} (hkind : d.kind = .array element) (hw : w ≠ .null) :
    d.decode w = .ok v ↔ ∃ name ws items, w = .array name ws ∧ v = .array items ∧
      ws.mapM (Wire.decodeItem element.descriptor.decode) = .ok items := by
  obtain ⟨_, _, _, _, kind, _⟩ := d
  obtain ⟨_, _⟩ := element
  cases hkind
  cases w with
  | array name ws =>
    simp [Wire.isNull, Wire.decodeItems_eq, map_eq_ok, @eq_comm _ v, and_comm]
  | _ => simp_all [Wire.isNull, undecodable]

theorem decode_range {subtype : TypeRef} (hkind : d.kind = .range subtype) (hw : w ≠ .null) :
    d.decode w = .ok v ↔ ∃ r r', w = .range r ∧ v = .range r' ∧ r.mapM subtype.descriptor.decode = .ok r' := by
  obtain ⟨_, _, _, _, kind, _⟩ := d
  obtain ⟨_, _⟩ := subtype
  cases hkind
  cases w with
  | range r => simp [Wire.isNull, map_eq_ok, @eq_comm _ v, and_comm]
  | _ => simp_all [Wire.isNull, undecodable]

/-- Only null reads as null. -/
theorem decode_eq_null (h : d.decode w = .ok .null) : w = .null := by
  by_contra hw
  cases hkind : d.kind with
  | unknown => simp [decode_unknown hkind hw] at h
  | base b => simp [decode_base hkind hw] at h
  | enum labels => simp [decode_enum hkind hw] at h
  | domain base => simp [decode_domain hkind hw] at h
  | composite fields => simp [decode_composite hkind hw] at h
  | array element => simp [decode_array hkind hw] at h
  | range subtype => simp [decode_range hkind hw] at h

theorem decode_null_iff (h : d.decode w = .ok v) : v = .null ↔ w = .null := by
  constructor
  · rintro rfl
    exact decode_eq_null h
  · rintro rfl
    exact (Except.ok.inj (d.decode_null.symm.trans h)).symm

/-- Only arrays read as arrays, with or without wrappers of domains. -/
theorem decode_wraps (h : d.decode w = .ok v) (hv : v.wrapsArray = true) : w.isArray = true := by
  induction d using TypeDescriptor.induction generalizing v with
  | step d ih =>
    by_cases hw : w = .null
    · subst hw
      rw [decode_null] at h
      cases h
      cases hv
    · cases hkind : d.kind with
      | unknown =>
        obtain ⟨s, rfl, rfl⟩ := (decode_unknown hkind hw).mp h
        cases hv
      | base b =>
        obtain ⟨s, s', rfl, -, rfl⟩ := (decode_base hkind hw).mp h
        cases hv
      | enum labels =>
        obtain ⟨label, -, rfl, rfl⟩ := (decode_enum hkind hw).mp h
        cases hv
      | domain base =>
        obtain ⟨inner, hinner, rfl⟩ := (decode_domain hkind hw).mp h
        exact ih base (by simp [hkind, TypeKind.parts]) hinner hv
      | composite fields =>
        obtain ⟨ws, given, rfl, rfl, -⟩ := (decode_composite hkind hw).mp h
        cases hv
      | array element =>
        obtain ⟨name, ws, items, rfl, -⟩ := (decode_array hkind hw).mp h
        rfl
      | range subtype =>
        obtain ⟨r, r', rfl, rfl, -⟩ := (decode_range hkind hw).mp h
        cases hv

end Reading

section Fields

variable {name : String} {f : Field} {fields : List Field} {w : Wire} {ws : List Wire}

theorem encodeFields_cons {given : List (String × Value)} (hlookup : Value.lookup f.name given = some v)
    (hnull : v = .null → f.type.nullable = true) (hv : f.type.descriptor.encode v = .ok w)
    (hrest : encodeFields name given fields = .ok ws) :
    encodeFields name given (f :: fields) = .ok (w :: ws) := by
  obtain ⟨field, d, nullable⟩ := f
  dsimp only at hlookup hnull hv
  rw [encodeFields, hlookup, hrest]
  cases v with
  | null =>
    rw [encode_null] at hv
    cases hv
    rw [hnull rfl]
    rfl
  | _ =>
    simp only [hv]
    rfl

theorem decodeFields_cons {rest : List (String × Value)} (hnull : v = .null → f.type.nullable = true)
    (hv : f.type.descriptor.decode w = .ok v) (hrest : decodeFields name fields ws = .ok rest) :
    decodeFields name (f :: fields) (w :: ws) = .ok ((f.name, v) :: rest) := by
  obtain ⟨field, d, nullable⟩ := f
  dsimp only at hnull hv
  rw [decodeFields, hv, hrest]
  cases v with
  | null => rw [hnull rfl]; rfl
  | _ => rfl

/-- A record that is read has the fields of its type, null only where a field may be. -/
theorem decodeFields_ok {given : List (String × Value)} (hlength : ws.length = fields.length)
    (h : decodeFields name fields ws = .ok given) :
    List.Forall₂ (fun f (p : String × Value) => p.1 = f.name ∧
      (p.2 = .null → f.type.nullable = true) ∧ ∃ w, f.type.descriptor.decode w = .ok p.2)
      fields given := by
  induction fields generalizing ws given with
  | nil =>
    cases h
    exact .nil
  | cons f fields ih =>
    obtain ⟨field, d, nullable⟩ := f
    cases ws with
    | nil => cases hlength
    | cons w ws =>
      rw [decodeFields] at h
      obtain ⟨v, hv, h⟩ := bind_eq_ok.mp h
      split at h
      · cases h
      · rename_i hnull
        obtain ⟨rest, hrest, h⟩ := bind_eq_ok.mp h
        cases h
        refine .cons ⟨rfl, ?_, w, hv⟩ (ih (Nat.succ.inj hlength) hrest)
        rintro rfl
        simpa [Value.isNull] using hnull

end Fields

end TypeDescriptor

end TypedSql

import TypedSql.Proofs.Conversion.Steps

/-! What was written, and from what: the values that each kind of type takes, and what it makes of them. -/
namespace TypedSql

namespace Value

/-- A value without its outermost domain. -/
def unwrapped : Value → Value
  | domain inner => inner
  | v => v

/-- Whether a value is a null, bare or in domains. -/
def isHollow : Value → Bool
  | null => true
  | domain inner => inner.isHollow
  | _ => false

@[simp] theorem isHollow_unwrapped (v : Value) : v.unwrapped.isHollow = v.isHollow := by
  cases v <;> rfl

theorem encodeUntyped_eq_null {v : Value} {w : Wire} (h : v.encodeUntyped = .ok w) :
    w = .null ↔ v.isHollow = true := by
  induction v using encodeUntyped.induct with
  | case1 =>
    cases h
    simp [isHollow]
  | case2 s | case3 label =>
    cases h
    simp [isHollow, Wire.text]
  | case4 inner ih =>
    rw [encodeUntyped] at h
    exact ih h
  | case5 items => cases h
  | case6 v => simp_all [encodeUntyped]

end Value

/-- What is sent for a field: the value supplied for it as its type writes it, or null where none is. Null
is neither supplied nor left out where the field must not be null. -/
inductive Field.Sends (f : Field) : Option Value → Wire → Prop
  | supplied {v : Value} {w : Wire} (hnull : v = .null → f.type.nullable = true)
    (hv : f.type.encode v = .ok w) : f.Sends (some v) w
  | omitted (hnull : f.type.nullable = true) : f.Sends none .null

namespace TypeDescriptor

variable {d : TypeDescriptor} {v : Value} {w : Wire}

theorem encode_base_iff {b : BaseType} (hkind : d.kind = .base b) (hv : v ≠ .null) :
    d.encode v = .ok w ↔ ∃ s s', v = .scalar s ∧ s.coerce b.native = some s' ∧ w = .scalar s' := by
  obtain ⟨_, _, _, _, kind, _⟩ := d
  cases hkind
  cases v with
  | scalar s =>
    cases hs : s.coerce b.native <;> simp [Value.isNull, mismatched, hs, @eq_comm _ w]
  | _ => simp_all [Value.isNull, mismatched]

theorem encode_enum_iff {labels : List String} (hkind : d.kind = .enum labels) (hv : v ≠ .null) :
    d.encode v = .ok w ↔
      ∃ label ∈ labels, (v = .enum label ∨ v = .scalar (.text label)) ∧ w = .text label := by
  obtain ⟨_, _, _, _, kind, _⟩ := d
  cases hkind
  cases v with
  | enum label =>
    by_cases hlabel : label ∈ labels <;> simp [Value.isNull, mismatched, hlabel, @eq_comm _ w]
  | scalar s =>
    cases s with
    | text label =>
      by_cases hlabel : label ∈ labels <;> simp [Value.isNull, mismatched, hlabel, @eq_comm _ w]
    | _ => simp [Value.isNull, mismatched]
  | _ => simp_all [Value.isNull, mismatched]

/-- A domain writes a value as its base does, wrapped or bare. -/
theorem encode_unwrapped {base : TypeRef} (hkind : d.kind = .domain base) (v : Value) :
    d.encode v = base.descriptor.encode v.unwrapped := by
  obtain ⟨_, _, _, _, kind, _⟩ := d
  obtain ⟨_, _⟩ := base
  cases hkind
  cases v with
  | null => simp [encode_null, Value.unwrapped]
  | _ => simp [Value.isNull, Value.unwrapped]

theorem encode_composite_iff {fields : List Field} (hkind : d.kind = .composite fields) (hv : v ≠ .null) :
    d.encode v = .ok w ↔ ∃ given ws, v = .record given ∧ w = .record ws ∧
      strayName? fields given = none ∧ encodeFields d.name given fields = .ok ws := by
  obtain ⟨_, _, _, _, kind, _⟩ := d
  cases hkind
  cases v with
  | record given =>
    cases hstray : strayName? fields given <;>
      simp [Value.isNull, mismatched, hstray, map_eq_ok, @eq_comm _ w, and_comm]
  | _ => simp_all [Value.isNull, mismatched]

theorem encode_array_iff {element : TypeRef} (hkind : d.kind = .array element) (hv : v ≠ .null) :
    d.encode v = .ok w ↔ ∃ items ws, v = .array items ∧ w = .array element.name ws ∧
      items.mapM (Value.encodeItem element.name element.descriptor.encode) = .ok ws := by
  obtain ⟨_, _, _, _, kind, _⟩ := d
  obtain ⟨_, _⟩ := element
  cases hkind
  cases v with
  | array items =>
    simp [Value.isNull, Value.encodeItems_eq, map_eq_ok, @eq_comm _ w, and_comm, TypeRef.name]
  | _ => simp_all [Value.isNull, mismatched]

theorem encode_range_iff {subtype : TypeRef} (hkind : d.kind = .range subtype) (hv : v ≠ .null) :
    d.encode v = .ok w ↔
      ∃ r r', v = .range r ∧ w = .range r' ∧ r.mapM subtype.descriptor.encode = .ok r' := by
  obtain ⟨_, _, _, _, kind, _⟩ := d
  obtain ⟨_, _⟩ := subtype
  cases hkind
  cases v with
  | range r => simp [Value.isNull, map_eq_ok, @eq_comm _ w, and_comm]
  | _ => simp_all [Value.isNull, mismatched]

theorem encode_ne_null (h : d.encode v = .ok w) (hw : w ≠ .null) : v ≠ .null := by
  rintro rfl
  rw [encode_null] at h
  exact hw (Except.ok.inj h).symm

/-- Null is sent for nulls alone, bare or in the domains of their type. -/
theorem encode_eq_null (h : d.encode v = .ok w) : w = .null ↔ v.isHollow = true := by
  induction d using TypeDescriptor.induction generalizing v with
  | step d ih =>
    by_cases hv : v = .null
    · subst hv
      rw [encode_null] at h
      cases h
      simp [Value.isHollow]
    · cases hkind : d.kind with
      | unknown =>
        rw [encode_unknown hkind] at h
        exact Value.encodeUntyped_eq_null h
      | base b =>
        obtain ⟨s, s', rfl, -, rfl⟩ := (encode_base_iff hkind hv).mp h
        simp [Value.isHollow]
      | enum labels =>
        obtain ⟨label, -, rfl | rfl, rfl⟩ := (encode_enum_iff hkind hv).mp h <;>
          simp [Value.isHollow, Wire.text]
      | domain base =>
        rw [encode_unwrapped hkind] at h
        rw [ih base (by simp [hkind, TypeKind.parts]) h, Value.isHollow_unwrapped]
      | composite fields =>
        obtain ⟨given, ws, rfl, rfl, -⟩ := (encode_composite_iff hkind hv).mp h
        simp [Value.isHollow]
      | array element =>
        obtain ⟨items, ws, rfl, rfl, -⟩ := (encode_array_iff hkind hv).mp h
        simp [Value.isHollow]
      | range subtype =>
        obtain ⟨r, r', rfl, rfl, -⟩ := (encode_range_iff hkind hv).mp h
        simp [Value.isHollow]

end TypeDescriptor

/-- What a field sends is null if nothing is supplied for it, or a null in domains; a bare null is
supplied only where the field may be null. -/
theorem Field.Sends.eq_null {f : Field} {o : Option Value} {w : Wire} (h : f.Sends o w) :
    w = .null ↔ ∀ v, o = some v → v.isHollow = true := by
  cases h with
  | supplied _ hv =>
    rw [TypeDescriptor.encode_eq_null hv]
    simp
  | omitted _ => simp

theorem Field.sends_none {f : Field} {w : Wire} :
    f.Sends none w ↔ f.type.nullable = true ∧ w = .null := by
  constructor
  · rintro ⟨⟩
    exact ⟨‹_›, rfl⟩
  · rintro ⟨hnull, rfl⟩
    exact .omitted hnull

theorem Field.sends_some {f : Field} {v : Value} {w : Wire} : f.Sends (some v) w ↔
    (v = .null → f.type.nullable = true) ∧ f.type.encode v = .ok w := by
  constructor
  · rintro ⟨⟩
    exact ⟨‹_›, ‹_›⟩
  · rintro ⟨hnull, hv⟩
    exact .supplied hnull hv

/-- A record is written field by field, in the order of the type. -/
theorem TypeDescriptor.encodeFields_eq_ok {name : String} {given : List (String × Value)}
    {fields : List Field} {ws : List Wire} : encodeFields name given fields = .ok ws ↔
      List.Forall₂ (fun f w => f.Sends (Value.lookup f.name given) w) fields ws := by
  induction fields generalizing ws with
  | nil => simp [encodeFields, eq_comm]
  | cons f rest ih =>
    obtain ⟨field, d, nullable⟩ := f
    have hstep {x : Except Error Wire} {f : Field}
        (hx : ∀ w, x = .ok w ↔ f.Sends (Value.lookup f.name given) w) :
        (x >>= fun w => encodeFields name given rest >>= fun ws' => pure (w :: ws')) = .ok ws ↔
          List.Forall₂ (fun f w => f.Sends (Value.lookup f.name given) w) (f :: rest) ws := by
      rw [List.forall₂_cons_left_iff, bind_eq_ok]
      simp only [bind_eq_ok, hx, ih, pure, Except.pure, Except.ok.injEq]
      constructor
      · rintro ⟨w, hw, ws', hws, rfl⟩
        exact ⟨w, ws', hw, hws, rfl⟩
      · rintro ⟨w, ws', hw, hws, rfl⟩
        exact ⟨w, hw, ws', hws, rfl⟩
    rw [encodeFields]
    cases hlookup : Value.lookup field given with
    | none =>
      cases nullable with
      | false => exact hstep fun w => by simp [hlookup, Field.sends_none, mismatched]
      | true => exact hstep fun w => by simp [hlookup, Field.sends_none, eq_comm]
    | some v =>
      by_cases hv : v = .null
      · subst hv
        cases nullable with
        | false => exact hstep fun w => by simp [hlookup, Field.sends_some, mismatched]
        | true => exact hstep fun w => by simp [hlookup, Field.sends_some, TypeRef.encode]
      · have hnull : (!v.isNull) = true := by simp [← Bool.not_eq_true, hv]
        simp only [hnull, if_true]
        exact hstep fun w => by simp [hlookup, Field.sends_some, TypeRef.encode, hv]

end TypedSql

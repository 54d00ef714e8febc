import TypedSql.Proofs.Conversion.Canonical
import TypedSql.Proofs.Value.Literals

/-! Arrays of domains over arrays: a domain leaves no trace in what is sent, so that its array counts as
one more dimension of the array it stands in, both when it is read back and in its text form. -/
namespace TypedSql

namespace TypeDescriptor

variable {d : TypeDescriptor} {v : Value} {w : Wire}

/-- A domain writes an array as its base does, wrapped or bare. -/
theorem encode_domain_array {base : TypeRef} (hkind : d.kind = .domain base) (items : List Value) :
    d.encode (.array items) = base.descriptor.encode (.array items) := by
  obtain ⟨_, _, _, _, _, _⟩ := d
  obtain ⟨_, _⟩ := base
  cases hkind
  simp [Value.isNull]

/-- An array type takes arrays only, no domains over them. -/
theorem encode_array_domain {element : TypeRef} (hkind : d.kind = .array element) (inner : Value) :
    d.encode (.domain inner) ≠ .ok w := by
  obtain ⟨_, _, _, _, _, _⟩ := d
  obtain ⟨_, _⟩ := element
  cases hkind
  simp [Value.isNull, mismatched]

/-- What spans an array is an array, or a domain over what spans one. -/
theorem spansArray_cases (h : d.spansArray = true) :
    (∃ element, d.kind = .array element) ∨
      ∃ base, d.kind = .domain base ∧ base.descriptor.spansArray = true := by
  obtain ⟨_, _, _, _, kind, _⟩ := d
  cases kind with
  | array element => exact .inl ⟨element, rfl⟩
  | domain base =>
    obtain ⟨inner, _⟩ := base
    exact .inr ⟨_, rfl, by rwa [spansArray] at h⟩
  | _ => simp [spansArray] at h

/-- Types that span arrays write arrays as arrays, whatever domains stand around them. -/
theorem encode_spans (hd : d.spansArray = true) (hv : v.wrapsArray = true) (h : d.encode v = .ok w) :
    w.isArray = true := by
  induction d using TypeDescriptor.induction generalizing v with
  | step d ih =>
    rcases spansArray_cases hd with ⟨element, hkind⟩ | ⟨base, hkind, hbase⟩
    · cases v with
      | array items =>
        rw [encode_array hkind] at h
        obtain ⟨ws, -, rfl⟩ := map_eq_ok.mp h
        rfl
      | domain inner => exact absurd h (encode_array_domain hkind inner)
      | _ => cases hv
    · have hpart : base ∈ d.kind.parts := by simp [hkind, TypeKind.parts]
      cases v with
      | array items =>
        rw [encode_domain_array hkind] at h
        exact ih base hpart hbase hv h
      | domain inner =>
        rw [encode_domain hkind] at h
        exact ih base hpart hbase (v := inner) hv h
      | _ => cases hv

end TypeDescriptor

/-- Arrays within an array are written bare. -/
theorem Wire.literalChars_nested {ws : List Wire} (element : String) (hws : ∀ w ∈ ws, w.isArray = true) :
    (Wire.array element ws).literalChars =
      '\x7b' :: Literal.commas (ws.map literalChars) ++ ['\x7d'] := by
  rw [literalChars, itemChars_eq]
  congr 3
  refine List.map_congr_left fun w hw => ?_
  cases w with
  | array element items => rfl
  | _ => cases hws _ hw

/-- An array within an array is read as one, never as an element. -/
theorem Wire.decodeItem_array {decode : Wire → Except Error Value} {w : Wire} {v : Value}
    (hw : w.isArray = true) (h : w.decodeItem decode = .ok v) : ∃ items, v = .array items := by
  cases w with
  | array element ws =>
    rw [decodeItem] at h
    obtain ⟨items, -, rfl⟩ := map_eq_ok.mp h
    exact ⟨items, rfl⟩
  | _ => cases hw

namespace TypeRef

variable {t element base : TypeRef} {items : List Value} {w : Wire}

/-- The domains of an array are written one by one, each as an array. -/
theorem encode_domains (ht : t.kind = .array element) (helement : element.kind = .domain base)
    (hbase : base.descriptor.spansArray = true)
    (hitems : ∀ v ∈ items, ∃ inner, v = .domain inner ∧ inner.wrapsArray = true)
    (h : t.encode (.array items) = .ok w) :
    ∃ ws, items.mapM element.encode = .ok ws ∧ w = .array element.name ws ∧
      ∀ p ∈ ws, p.isArray = true := by
  rw [encode, TypeDescriptor.encode_array ht] at h
  obtain ⟨ws, hws, rfl⟩ := map_eq_ok.mp h
  have hmapM : items.mapM element.encode = .ok ws := by
    refine mapM_ok_of hws fun v hv w hw => ?_
    obtain ⟨inner, rfl, -⟩ := hitems v hv
    exact hw
  refine ⟨ws, hmapM, rfl, fun p hp => ?_⟩
  obtain ⟨v, hv, hp⟩ := mapM_mem hmapM hp
  obtain ⟨inner, rfl, hinner⟩ := hitems v hv
  rw [encode, TypeDescriptor.encode_domain helement] at hp
  exact TypeDescriptor.encode_spans hbase hinner hp

/-- An array of domains over arrays is sent as an array of arrays: in its text the inner ones stand bare,
as a further dimension, and what is read back of it are arrays in place of the domains. Only the empty one
reads back as it was. -/
theorem domains_over_arrays_nest (ht : t.kind = .array element) (helement : element.kind = .domain base)
    (hbase : base.descriptor.spansArray = true)
    (hitems : ∀ v ∈ items, ∃ inner, v = .domain inner ∧ inner.wrapsArray = true) :
    ((∃ w, t.encode (.array items) = .ok w ∧ t.decode w = .ok (.array items)) ↔ items = []) ∧
    ∀ w, t.encode (.array items) = .ok w →
      (∃ ws, items.mapM element.encode = .ok ws ∧ w = .array element.name ws ∧
        (∀ p ∈ ws, p.isArray = true) ∧
        w.literalChars = '\x7b' :: Literal.commas (ws.map Wire.literalChars) ++ ['\x7d']) ∧
      ∀ v, t.decode w = .ok v → ∃ rows, v = .array rows ∧ rows.length = items.length ∧
        ∀ row ∈ rows, ∃ values, row = .array values := by
  have hread {w : Wire} {v : Value} (hw : t.encode (.array items) = .ok w) (hv : t.decode w = .ok v) :
      ∃ rows, v = .array rows ∧ rows.length = items.length ∧ ∀ row ∈ rows, ∃ values, row = .array values := by
    obtain ⟨ws, hws, rfl, harrays⟩ := encode_domains ht helement hbase hitems hw
    obtain ⟨_, _, rows, heq, rfl, hrows⟩ := (TypeDescriptor.decode_array ht (by nofun)).mp hv
    cases heq
    refine ⟨rows, rfl, ?_, fun row hrow => ?_⟩
    · rw [(mapM_eq_ok.mp hws).length_eq, (mapM_eq_ok.mp hrows).length_eq]
    · obtain ⟨p, hp, hrow⟩ := mapM_mem hrows hrow
      exact Wire.decodeItem_array (harrays p hp) hrow
  refine ⟨⟨?_, ?_⟩, fun w hw => ⟨?_, fun v hv => hread hw hv⟩⟩
  · rintro ⟨w, hw, hv⟩
    obtain ⟨rows, heq, -, hrows⟩ := hread hw hv
    cases heq
    -- an item would be a domain that was read as an array
    refine List.eq_nil_iff_forall_not_mem.mpr fun v hv => ?_
    obtain ⟨inner, rfl, -⟩ := hitems v hv
    obtain ⟨values, hvalues⟩ := hrows _ hv
    cases hvalues
  · rintro rfl
    refine ⟨.array element.name [], ?_, (TypeDescriptor.decode_array ht (by nofun)).mpr ?_⟩
    · rw [encode, TypeDescriptor.encode_array ht]
      rfl
    · exact ⟨_, [], [], rfl, rfl, rfl⟩
  · obtain ⟨ws, hws, rfl, harrays⟩ := encode_domains ht helement hbase hitems hw
    exact ⟨ws, hws, rfl, harrays, Wire.literalChars_nested element.name harrays⟩

/-- Two lists in an array of domains over domains over lists, one of them empty: a literal of two
dimensions. -/
theorem domains_over_arrays_nest_lists :
    let ints : TypeRef := ⟨⟨1007, "_int4", systemSchema, none, .array (.builtin .int4 true), 0⟩, true⟩
    let list : TypeRef := ⟨⟨1, "int_list", "public", some 2, .domain ints, 1⟩, true⟩
    let scores : TypeRef := ⟨⟨3, "scores", "public", some 4, .domain list, 3⟩, true⟩
    let table : TypeRef := ⟨⟨4, "_scores", "public", none, .array scores, 4⟩, false⟩
    let items : List Value := [.domain (.domain (.array [.scalar (.int32 1)])), .domain (.array [])]
    (∀ v ∈ items, ∃ inner, v = .domain inner ∧ inner.wrapsArray = true) ∧
      ∃ w, table.encode (.array items) = .ok w ∧ w.literalChars = "\x7b\x7b\"1\"\x7d,\x7b\x7d\x7d".toList ∧
        table.decode w ≠ .ok (.array items) := by
  intro ints list scores table items
  have hitems : ∀ v ∈ items, ∃ inner, v = .domain inner ∧ inner.wrapsArray = true := by
    simp [items, Value.wrapsArray]
  have hbase : list.descriptor.spansArray = true := by simp [list, ints, TypeDescriptor.spansArray]
  obtain ⟨hempty, -⟩ := domains_over_arrays_nest (t := table) rfl rfl hbase hitems
  refine ⟨hitems, .array "scores" [.array "int4" [.scalar (.int32 1)], .array "int4" []], rfl, rfl, ?_⟩
  intro hread
  simpa [items] using hempty.mp ⟨_, rfl, hread⟩

/-- A list of one number in an array of domains over lists stands without quotes and is not read back at
all; an empty list is read as an array in place of its domain. -/
theorem int_list_in_array_lost :
    let ints : TypeRef := ⟨⟨1007, "_int4", systemSchema, none, .array (.builtin .int4 true), 0⟩, true⟩
    let list : TypeRef := ⟨⟨1, "int_list", "public", some 2, .domain ints, 1⟩, true⟩
    let lists : TypeRef := ⟨⟨2, "_int_list", "public", none, .array list, 2⟩, false⟩
    let one : Wire := .array "int4" [.scalar (.int32 1)]
    let empty : Wire := .array "int4" []
    (lists.encode (.array [.domain (.array [.scalar (.int32 1)])]) = .ok (.array "int_list" [one]) ∧
      (∀ v, lists.decode (.array "int_list" [one]) ≠ .ok v) ∧
      (Wire.array "int_list" [one]).literalChars ≠
        '\x7b' :: Literal.commas [Literal.quote one.literalChars] ++ ['\x7d']) ∧
    lists.encode (.array [.domain (.array [])]) = .ok (.array "int_list" [empty]) ∧
      lists.decode (.array "int_list" [empty]) = .ok (.array [.array []]) := by
  refine ⟨⟨rfl, ?_, ?_⟩, rfl, rfl⟩
  · intro v h
    cases h
  · decide

end TypeRef
end TypedSql

import TypedSql.Proofs.Conversion.RoundTrip
import TypedSql.Proofs.Conversion.Writing

/-! Records as they are supplied: fields in any order, some left out, some repeated. Of the pairs with one
name the first is sent, and the others have no influence. -/
namespace TypedSql

namespace Value

variable {before behind : List (String × Value)} {p : String × Value}

/-- The first pair with a name is the one that is found. -/
theorem lookup_first (h : p.1 ∉ before.map Prod.fst) : lookup p.1 (before ++ p :: behind) = some p.2 := by
  rw [lookup_append, lookup_eq_none.mpr h]
  simp [lookup]

/-- A pair behind one with its name is never found. -/
theorem lookup_repeated (h : p.1 ∈ before.map Prod.fst) (name : String) :
    lookup name (before ++ p :: behind) = lookup name (before ++ behind) := by
  rw [lookup_append, lookup_append]
  cases hbefore : lookup name before with
  | some v => rfl
  | none =>
    have hname : p.1 ≠ name := fun heq => lookup_eq_none.mp hbefore (heq ▸ h)
    simp [lookup, hname]

end Value

namespace TypeRef

variable {t : TypeRef} {fields : List Field} {given before behind : List (String × Value)}
  {p : String × Value} {w : Wire}

/-- A record is accepted if it has names of fields only and each field sends what is found under its
name. -/
theorem encode_record_iff (hkind : t.kind = .composite fields) : t.encode (.record given) = .ok w ↔
    given.map Prod.fst ⊆ fields.map Field.name ∧ ∃ ws, w = .record ws ∧
      List.Forall₂ (fun f x => f.Sends (Value.lookup f.name given) x) fields ws := by
  rw [encode, TypeDescriptor.encode_composite_iff hkind (by simp), ← strayName?_eq_none]
  simp only [← @TypeDescriptor.encodeFields_eq_ok t.descriptor.name]
  constructor
  · rintro ⟨_, ws, ⟨⟩, rfl, hstray, hws⟩
    exact ⟨hstray, ws, rfl, hws⟩
  · rintro ⟨hstray, ws, rfl, hws⟩
    exact ⟨given, ws, rfl, rfl, hstray, hws⟩

/-- Whatever is supplied under a name for a second time, the same is sent. -/
theorem encode_repeated (hkind : t.kind = .composite fields)
    (h : t.encode (.record (before ++ p :: behind)) = .ok w) (hp : p.1 ∈ before.map Prod.fst) (v : Value) :
    t.encode (.record (before ++ (p.1, v) :: behind)) = .ok w := by
  obtain ⟨hnames, hfields⟩ := (encode_record_iff hkind).mp h
  refine (encode_record_iff hkind).mpr ⟨by simpa using hnames, ?_⟩
  simp only [Value.lookup_repeated hp] at hfields
  simp only [Value.lookup_repeated (p := (p.1, v)) hp]
  exact hfields

/-- What is sent for a record has one entry for each field of its type, in their order. The entry is null
if nothing is supplied under the field's name, or a null, bare or in domains; else it is what the field's
type makes of the first value under the name. A value supplied under a name for a second time is neither
sent nor looked at. -/
theorem record_sent (hkind : t.kind = .composite fields) (h : t.encode (.record given) = .ok w) :
    given.map Prod.fst ⊆ fields.map Field.name ∧ ∃ ws, w = .record ws ∧
      List.Forall₂ (fun f x => f.Sends (Value.lookup f.name given) x) fields ws ∧
      (∀ f x, (f, x) ∈ fields.zip ws →
        (x = .null ↔ ∀ v, Value.lookup f.name given = some v → v.isHollow = true)) ∧
      ∀ before p behind, given = before ++ p :: behind →
        (p.1 ∉ before.map Prod.fst →
          ∀ f x, (f, x) ∈ fields.zip ws → f.name = p.1 → f.type.encode p.2 = .ok x) ∧
        (p.1 ∈ before.map Prod.fst → ∀ v, t.encode (.record (before ++ (p.1, v) :: behind)) = .ok w) := by
  obtain ⟨hnames, ws, rfl, hfields⟩ := (encode_record_iff hkind).mp h
  refine ⟨hnames, ws, rfl, hfields, fun f x hx => (List.forall₂_zip hfields hx).eq_null, ?_⟩
  rintro before p behind rfl
  refine ⟨fun hp f x hx hname => ?_, fun hp v => encode_repeated hkind h hp v⟩
  have hsends := List.forall₂_zip hfields hx
  rw [hname, Value.lookup_first hp, Field.sends_some] at hsends
  exact hsends.2

/-- An address with its fields out of order, one of them left out, and a street supplied twice, the
second time as a number. -/
theorem record_sent_repeated :
    let street : Field := ⟨"street", .builtin .text false⟩
    let city : Field := ⟨"city", .builtin .text true⟩
    let zip : Field := ⟨"zip", .builtin .int4 true⟩
    let address : TypeRef := ⟨⟨1, "address", "public", none, .composite [street, city, zip], 1⟩, false⟩
    let before : List (String × Value) := [("zip", .scalar (.int64 5)), ("street", .scalar (.text "Main"))]
    let w : Wire := .record [.text "Main", .null, .scalar (.int32 5)]
    address.encode (.record (before ++ [("street", .scalar (.int32 1))])) = .ok w ∧
      ∀ v, address.encode (.record (before ++ [("street", v)])) = .ok w := by
  intro street city zip address before w
  have hencode : address.encode (.record (before ++ [("street", .scalar (.int32 1))])) = .ok w := by rfl
  obtain ⟨_, _, _, _, _, hpairs⟩ := record_sent rfl hencode
  exact ⟨hencode, (hpairs before _ [] rfl).2 (by simp [before])⟩

/-- Of two streets the second is not sent, although its field's type takes it. -/
theorem second_street_dropped :
    let street : Field := ⟨"street", .builtin .text false⟩
    let address : TypeRef := ⟨⟨1, "address", "public", none, .composite [street], 1⟩, false⟩
    address.encode (.record [("street", .scalar (.text "a")), ("street", .scalar (.text "b"))]) =
        .ok (.record [.text "a"]) ∧
      street.type.encode (.scalar (.text "b")) = .ok (.text "b") ∧ Wire.text "b" ∉ [Wire.text "a"] := by
  refine ⟨rfl, rfl, ?_⟩
  simp [Wire.text]

end TypeRef
end TypedSql

import TypedSql.Proofs.Catalog.Memory
import TypedSql.Proofs.Conversion.RoundTrip
import TypedSql.Proofs.Conversion.Writing
import TypedSql.Proofs.Value.Literals

/-! Nulls as the bounds of ranges: resolved types rule them out, both conversions let them pass, and the
text form does not tell them from empty text. -/
namespace TypedSql

/-- Another value in the place of that of a bound. -/
def Bound.map {α : Type} (f : α → α) : Bound α → Bound α
  | inclusive a => inclusive (f a)
  | exclusive a => exclusive (f a)
  | unbounded => unbounded

/-- Other values in the places of those of the bounds. -/
def Range.map {α : Type} (f : α → α) : Range α → Range α
  | empty => empty
  | between lower upper => between (lower.map f) (upper.map f)

section Bounds

variable {α β ε : Type} {f : α → Except ε β}

private theorem Bound.mapM_succeeds {a : Bound α} :
    (∃ b, a.mapM f = .ok b) ↔ ∀ x ∈ a.values, ∃ y, f x = .ok y := by
  cases a with
  | unbounded => exact ⟨fun _ => List.forall_mem_nil _, fun _ => ⟨.unbounded, rfl⟩⟩
  | inclusive x | exclusive x =>
    rw [mapM, map_succeeds, values, List.forall_mem_singleton]

private theorem Bound.mapM_map {g : α → α} {g' : β → β} {a : Bound α} {b : Bound β}
    (hg : ∀ x y, f x = .ok y → f (g x) = .ok (g' y)) (h : a.mapM f = .ok b) :
    (a.map g).mapM f = .ok (b.map g') := by
  cases a with
  | unbounded =>
    cases h
    rfl
  | inclusive x | exclusive x =>
    obtain ⟨y, hy, rfl⟩ := map_eq_ok.mp h
    rw [map, mapM, hg x y hy, ok_map, map]

namespace Range

/-- A range is transformed if each of its bounds is. -/
theorem mapM_succeeds {r : Range α} : (∃ r', r.mapM f = .ok r') ↔ ∀ a ∈ r.bounds, ∃ b, f a = .ok b := by
  cases r with
  | empty => exact ⟨fun _ => List.forall_mem_nil _, fun _ => ⟨.empty, rfl⟩⟩
  | between lower upper =>
    rw [mapM, bounds, List.forall_mem_append, ← Bound.mapM_succeeds, ← Bound.mapM_succeeds, bind_succeeds]
    simp only [bind_succeeds, pure_succeeds, and_true, exists_and_right]

/-- What is transformed in any case need not be looked at. -/
theorem mapM_succeeds_but {z : α} (hz : ∃ b, f z = .ok b) {r : Range α} :
    (∃ r', r.mapM f = .ok r') ↔ ∀ a ∈ r.bounds, a ≠ z → ∃ b, f a = .ok b := by
  rw [mapM_succeeds]
  refine forall₂_congr fun a _ => ⟨fun ha _ => ha, fun ha => ?_⟩
  by_cases hne : a = z
  · exact hne ▸ hz
  · exact ha hne

/-- What replaces each bound before a transformation and behind it, replaces the bounds of the range. -/
theorem mapM_map {g : α → α} {g' : β → β} {r : Range α} {r' : Range β}
    (hg : ∀ a b, f a = .ok b → f (g a) = .ok (g' b)) (h : r.mapM f = .ok r') :
    (r.map g).mapM f = .ok (r'.map g') := by
  cases r with
  | empty =>
    cases h
    rfl
  | between lower upper =>
    obtain ⟨lower', hlower, h⟩ := bind_eq_ok.mp h
    obtain ⟨upper', hupper, h⟩ := bind_eq_ok.mp h
    cases h
    rw [map, mapM, Bound.mapM_map hg hlower, Bound.mapM_map hg hupper]
    rfl

end Range

end Bounds

/-- Empty text in the place of a null, bare or in domains. -/
def Value.orEmpty (v : Value) : Value := if v.isHollow then .scalar (.text "") else v

namespace Wire

/-- Empty text in the place of null. -/
def orEmpty : Wire → Wire
  | null => text ""
  | w => w

@[simp] theorem orEmpty_literalChars (w : Wire) : w.orEmpty.literalChars = w.literalChars := by
  cases w <;> rfl

/-- The bounds of a range are written as their own text forms, whatever they are. -/
theorem range_literalChars_map {g : Wire → Wire} (hg : ∀ w, (g w).literalChars = w.literalChars)
    (r : Range Wire) : (range (r.map g)).literalChars = (range r).literalChars := by
  have htext (b : Bound Wire) : boundText (b.map g) = boundText b := by
    cases b <;> simp [Bound.map, boundText, hg]
  have hincluded (b : Bound Wire) : included (b.map g) = included b := by
    cases b <;> rfl
  cases r with
  | empty => rfl
  | between lower upper =>
    rw [Range.map, range_literalChars, range_literalChars]
    simp only [htext, opening, closing, hincluded]

end Wire

theorem TypeDescriptor.decode_bounds {d : TypeDescriptor} {subtype : TypeRef}
    (hkind : d.kind = .range subtype) (r : Range Wire) :
    d.decode (.range r) = .range <$> r.mapM subtype.descriptor.decode := by
  obtain ⟨_, _, _, _, kind, _⟩ := d
  obtain ⟨_, _⟩ := subtype
  cases hkind
  rw [decode]
  simp [Wire.isNull]

/-- A type that writes empty text as it is writes it in the place of every null. -/
theorem TypeDescriptor.encode_orEmpty {d : TypeDescriptor}
    (htext : d.encode (.scalar (.text "")) = .ok (.text "")) {v : Value} {w : Wire}
    (h : d.encode v = .ok w) : d.encode v.orEmpty = .ok w.orEmpty := by
  have hnull := encode_eq_null h
  by_cases hv : v.isHollow = true
  · obtain rfl := hnull.mpr hv
    rw [Value.orEmpty, if_pos hv, htext, Wire.orEmpty]
  · have hw : w.orEmpty = w := by
      cases w with
      | null => exact absurd (hnull.mp rfl) hv
      | _ => rfl
    rw [Value.orEmpty, if_neg hv, hw, h]

namespace TypeSession

/-- A kept type is kept with all the types that it is made of. -/
theorem Coherent.types_subset {s : TypeSession} (hs : s.Coherent) {d : TypeDescriptor} (hd : d ∈ s.cache) :
    d.types ⊆ s.cache := by
  induction d using TypeDescriptor.induction with
  | step d ih =>
    rw [d.types_eq, TypeKind.types_eq, List.cons_subset]
    refine ⟨hd, fun part hpart => ?_⟩
    obtain ⟨t, ht, hpart⟩ := List.mem_flatMap.mp hpart
    exact ih t ht (hs.parts d hd t ht) hpart

/-- The bounds of a range type are used as never null, whatever was resolved before it and whatever became
of the catalog meanwhile, and neither conversion looks at that. A range is written, or read, if its bounds
other than null can be. The bounds sent are null where nulls are supplied, bare or in domains, and those
read are null where nulls are received. In the text form a null bound is empty text: where the type of the
bounds writes that as it is, a range with empty text for its nulls is accepted too and looks the same. -/
theorem range_bounds_unchecked (start : Nat) (earlier : List Call) (source : Snapshot) (oid : Oid)
    (nullable : Bool) {t subtype : TypeRef} {d : TypeDescriptor}
    (ht : (((fresh start).resolveEach earlier).resolve source oid nullable).1 = .ok t)
    (hd : d ∈ t.descriptor.types) (hkind : d.kind = .range subtype) :
    subtype.nullable = false ∧
      (∀ r, (∃ w, d.encode (.range r) = .ok w) ↔ ∀ v ∈ r.bounds, v ≠ .null → ∃ x, subtype.encode v = .ok x) ∧
      (∀ r r', d.encode (.range r) = .ok (.range r') →
        List.Forall₂ (fun v x => x = .null ↔ v.isHollow = true) r.bounds r'.bounds) ∧
      (∀ r, (∃ v, d.decode (.range r) = .ok v) ↔ ∀ w ∈ r.bounds, w ≠ .null → ∃ v, subtype.decode w = .ok v) ∧
      (∀ r r', d.decode (.range r) = .ok (.range r') →
        List.Forall₂ (fun w v => v = .null ↔ w = .null) r.bounds r'.bounds) ∧
      (subtype.encode (.scalar (.text "")) = .ok (.text "") → ∀ r r', d.encode (.range r) = .ok (.range r') →
        d.encode (.range (r.map Value.orEmpty)) = .ok (.range (r'.map Wire.orEmpty)) ∧
          (Wire.range (r'.map Wire.orEmpty)).literal? = (Wire.range r').literal?) := by
  have hencode := TypeDescriptor.encode_range hkind
  have hencodes {r : Range Value} {r' : Range Wire} (h : d.encode (.range r) = .ok (.range r')) :
      r.mapM subtype.descriptor.encode = .ok r' := by
    obtain ⟨_, hr, ⟨⟩⟩ := map_eq_ok.mp (hencode r ▸ h)
    exact hr
  have hdecode := TypeDescriptor.decode_bounds hkind
  refine ⟨?_, fun r => ?_, fun r r' h => ?_, fun r => ?_, fun r r' h => ?_, fun htext r r' h => ⟨?_, ?_⟩⟩
  · -- the types of a resolved type are kept behind the call, and what is kept is coherent
    obtain ⟨hs, -, -⟩ := resolveEach_keeps (coherent_fresh start) earlier
    have hcall := resolve_keeps hs source oid nullable
    obtain ⟨hmem, -⟩ := hcall.outcome t ht
    exact hcall.coherent.subtypes d (hcall.coherent.types_subset hmem hd) subtype hkind
  · rw [hencode, map_succeeds]
    exact Range.mapM_succeeds_but ⟨.null, subtype.descriptor.encode_null⟩
  · exact (Range.mapM_bounds (hencodes h)).imp fun v x hx => TypeDescriptor.encode_eq_null hx
  · rw [hdecode, map_succeeds]
    exact Range.mapM_succeeds_but ⟨.null, subtype.descriptor.decode_null⟩
  · obtain ⟨_, hr, ⟨⟩⟩ := map_eq_ok.mp (hdecode r ▸ h)
    exact (Range.mapM_bounds hr).imp fun w v hv => TypeDescriptor.decode_null_iff hv
  · have hfilled : (r.map Value.orEmpty).mapM subtype.descriptor.encode = .ok (r'.map Wire.orEmpty) :=
      Range.mapM_map (fun _ _ hv => TypeDescriptor.encode_orEmpty htext hv) (hencodes h)
    rw [hencode, hfilled, ok_map]
  · rw [Wire.literal?, Wire.literal?, Wire.range_literalChars_map Wire.orEmpty_literalChars]
    rfl

/-- A range of email addresses, resolved behind the type of the addresses: both its bounds are nulls, the
one bare and the other in a domain. -/
theorem range_bounds_unchecked_email :
    let source : Snapshot := ⟨[.ofClass 25 "text" "pg_catalog" .base,
      (TypeRow.ofClass 10 "email" "app" .domain).domainOver 25 true,
      .ofClass 11 "email_range" "app" .range], [], [], [(11, 10)]⟩
    let email : TypeRef := ⟨⟨10, "email", "app", none,
      .domain ⟨⟨25, "text", "pg_catalog", none, .base .text, 1⟩, false⟩, 2⟩, false⟩
    let t : TypeRef := ⟨⟨11, "email_range", "app", none, .range email, 3⟩, true⟩
    (((fresh 1).resolveEach [⟨source, 10, false⟩]).resolve source 11 true).1 = .ok t ∧
      email.nullable = false ∧
      (∃ w, t.encode (.range (.between (.inclusive .null) (.exclusive (.domain .null)))) = .ok w) := by
  intro source email t
  have ht : (((fresh 1).resolveEach [⟨source, 10, false⟩]).resolve source 11 true).1 = .ok t := by rfl
  obtain ⟨hnull, hwrites, -⟩ := range_bounds_unchecked 1 [⟨source, 10, false⟩] source 11 true ht
    t.descriptor.self_mem_types rfl
  refine ⟨ht, hnull, (hwrites _).mpr fun v hv hne => ?_⟩
  obtain rfl : v = .domain .null := by simpa [Range.bounds, Bound.values, hne] using hv
  exact ⟨.null, rfl⟩

/-- Of two ranges of texts one starts with empty text and the other with null, where no null may be. Both
are accepted, with one text form, and the null is read back. -/
theorem null_bound_sent :
    let source : Snapshot := ⟨[.ofClass 25 "text" "pg_catalog" .base, .ofClass 11 "text_range" "app" .range],
      [], [], [(11, 25)]⟩
    let text : TypeRef := ⟨⟨25, "text", "pg_catalog", none, .base .text, 1⟩, false⟩
    let t : TypeRef := ⟨⟨11, "text_range", "app", none, .range text, 2⟩, true⟩
    let sent : Wire := .range (.between (.inclusive (.text "")) .unbounded)
    let sentNull : Wire := .range (.between (.inclusive .null) .unbounded)
    (new.resolve source 11 true).1 = .ok t ∧
      t.encode (.range (.between (.inclusive (.scalar (.text ""))) .unbounded)) = .ok sent ∧
      t.encode (.range (.between (.inclusive .null) .unbounded)) = .ok sentNull ∧
      sent.literal? = sentNull.literal? ∧
      t.decode sentNull = .ok (.range (.between (.inclusive .null) .unbounded)) := by
  intro source text t sent sentNull
  exact ⟨rfl, rfl, rfl, rfl, rfl⟩

end TypeSession
end TypedSql

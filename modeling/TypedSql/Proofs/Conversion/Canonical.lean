import TypedSql.Proofs.Conversion.Inhabitants

/-! Whole values: those in the form their type is read in read back as they were written, and so does
whatever was read. -/
namespace TypedSql

/-- Whether a type is an array or a domain over one, domains over domains included. -/
def TypeDescriptor.spansArray : TypeDescriptor → Bool
  | ⟨_, _, _, _, .array _, _⟩ => true
  | ⟨_, _, _, _, .domain ⟨base, _⟩, _⟩ => base.spansArray
  | _ => false

theorem TypeDescriptor.spansArray_array {d : TypeDescriptor} {element : TypeRef}
    (hkind : d.kind = .array element) : d.spansArray = true := by
  obtain ⟨_, _, _, _, _, _⟩ := d
  cases hkind
  rw [spansArray]

theorem TypeDescriptor.spansArray_domain {d : TypeDescriptor} {base : TypeRef}
    (hkind : d.kind = .domain base) : d.spansArray = base.descriptor.spansArray := by
  obtain ⟨_, _, _, _, _, _⟩ := d
  obtain ⟨_, _⟩ := base
  cases hkind
  rw [spansArray]

/-- A kind of type whose elements, if it has any, are no arrays. -/
def TypeKind.ElementsPlain : TypeKind → Prop
  | .array element => element.descriptor.spansArray = false
  | _ => True

/-- The form in which values of a type that are not null are read. An array holds nulls, values in the
form of its element type, and arrays of these, to any depth and of any lengths. -/
inductive TypeKind.Canonical : TypeKind → Value → Prop
  | unknown (s : Scalar) : Canonical .unknown (.scalar s)
  | base {b : BaseType} {s : Scalar} (hnative : s.native = b.native) : Canonical (.base b) (.scalar s)
  | enum {labels : List String} {label : String} (hlabel : label ∈ labels) :
    Canonical (.enum labels) (.enum label)
  | domain {base : TypeRef} {v : Value} (hv : base.kind.Canonical v) : Canonical (.domain base) (.domain v)
  | composite {fields : List Field} {given : List (String × Value)}
    (hnames : given.map Prod.fst = fields.map Field.name)
    (hnulls : ∀ f name, (f, name, Value.null) ∈ fields.zip given → f.type.nullable = true)
    (hvalues : ∀ f name v, (f, name, v) ∈ fields.zip given → v ≠ .null → f.type.kind.Canonical v) :
    Canonical (.composite fields) (.record given)
  | array {element : TypeRef} {items : List Value}
    (helements : ∀ v ∈ Value.allElements items, v ≠ .null → element.kind.Canonical v) :
    Canonical (.array element) (.array items)
  | range {subtype : TypeRef} {r : Range Value} (hbounds : ∀ v ∈ r.bounds, subtype.kind.Canonical v) :
    Canonical (.range subtype) (.range r)

namespace TypeKind.Canonical

variable {kind : TypeKind} {v : Value} {d : TypeDescriptor}

/-- Only types that span arrays have arrays among their values. -/
theorem spansArray (h : kind.Canonical v) (hkind : d.kind = kind) (hv : v.wrapsArray = true) :
    d.spansArray = true := by
  induction h generalizing d with
  | domain _ ih => rw [TypeDescriptor.spansArray_domain hkind, ih rfl hv]
  | array _ => exact TypeDescriptor.spansArray_array hkind
  | _ => cases hv

/-- The form of a type is one of its inhabitants, if elements of arrays are no arrays. -/
theorem inhabits (h : kind.Canonical v) (hkind : d.kind = kind)
    (helements : ∀ p ∈ d.types, p.kind.ElementsPlain) : kind.Inhabits v := by
  have hpart {d : TypeDescriptor} (helements : ∀ p ∈ d.types, p.kind.ElementsPlain) {t : TypeRef}
      (ht : t ∈ d.kind.parts) : ∀ p ∈ t.descriptor.types, p.kind.ElementsPlain :=
    fun p hp => helements p (d.types_subset ht hp)
  induction h generalizing d with
  | unknown s => exact .unknown s
  | base hnative => exact .base hnative
  | enum hlabel => exact .enum hlabel
  | domain _ ih => exact .domain (ih rfl (hpart helements (by simp [hkind, TypeKind.parts])))
  | composite hnames hnulls _ ih =>
    refine .composite hnames hnulls fun f name v hmem hv => ih f name v hmem hv rfl (hpart helements ?_)
    simpa [hkind, TypeKind.parts] using ⟨f, (List.of_mem_zip hmem).1, rfl⟩
  | @array element items hitems ih =>
    have hplain := helements d d.self_mem_types
    rw [hkind] at hplain
    refine .array (fun v hv => ?_) fun v hv hne =>
      ih v hv hne rfl (hpart helements (by simp [hkind, TypeKind.parts]))
    by_cases hne : v = .null
    · exact hne ▸ rfl
    · by_contra hwraps
      have hspans := (hitems v hv hne).spansArray (d := element.descriptor) rfl (by simpa using hwraps)
      rw [hplain] at hspans
      cases hspans
  | range _ ih =>
    exact .range fun v hv _ => ih v hv rfl (hpart helements (by simp [hkind, TypeKind.parts]))

theorem roundTrips (h : kind.Canonical v) (hkind : d.kind = kind)
    (hnames : ∀ p ∈ d.types, p.kind.NamesDistinct) (helements : ∀ p ∈ d.types, p.kind.ElementsPlain) :
    d.RoundTrips v :=
  (h.inhabits hkind helements).roundTrips hkind hnames

end TypeKind.Canonical

/-- A value in the form of its type is written, and reads back as it is. Names of fields have to be
distinct, and elements of arrays no arrays themselves, as these would count as further dimensions. -/
theorem TypeRef.canonical_reads_back {t : TypeRef} {v : Value}
    (hnames : ∀ d ∈ t.descriptor.types, d.kind.NamesDistinct)
    (helements : ∀ d ∈ t.descriptor.types, d.kind.ElementsPlain) (hv : v = .null ∨ t.kind.Canonical v) :
    ∃ w, t.encode v = .ok w ∧ t.decode w = .ok v := by
  rcases hv with rfl | hv
  · exact t.descriptor.roundTrips_null
  · exact hv.roundTrips rfl hnames helements

/-- A record with an array of domains over an enumeration, ragged and with a null in it, a range that is
open to one side, and a field that is null. -/
theorem TypeRef.canonical_reads_back_record :
    let mood : TypeRef := ⟨⟨1, "mood", "public", none, .enum ["sad", "happy"], 1⟩, true⟩
    let habit : TypeRef := ⟨⟨2, "habit", "public", some 3, .domain mood, 2⟩, true⟩
    let habits : TypeRef := ⟨⟨3, "_habit", "public", none, .array habit, 3⟩, true⟩
    let span : TypeRef := ⟨⟨4, "span", "public", none, .range (.builtin .int4 false), 4⟩, false⟩
    let person : TypeRef := ⟨⟨5, "person", "public", none,
      .composite [⟨"habits", habits⟩, ⟨"during", span⟩, ⟨"note", .builtin .text true⟩], 5⟩, false⟩
    let v : Value := .record [
      ("habits", .array [.array [.domain (.enum "happy"), .null], .array [], .domain (.enum "sad")]),
      ("during", .range (.between (.inclusive (.scalar (.int32 1))) .unbounded)), ("note", .null)]
    ∃ w, person.encode v = .ok w ∧ person.decode w = .ok v := by
  intro mood habit habits span person v
  have hhabit {label : String} (hlabel : label ∈ ["sad", "happy"]) :
      habit.kind.Canonical (.domain (.enum label)) := .domain (.enum hlabel)
  have hhabits : habits.kind.Canonical
      (.array [.array [.domain (.enum "happy"), .null], .array [], .domain (.enum "sad")]) := by
    refine .array fun v hv hne => ?_
    simp only [Value.allElements, Value.elements, List.cons_append, List.nil_append, List.append_nil,
      List.mem_cons, List.not_mem_nil, or_false] at hv
    rcases hv with rfl | rfl | rfl
    · exact hhabit (by decide)
    · exact absurd rfl hne
    · exact hhabit (by decide)
  have hspan : span.kind.Canonical (.range (.between (.inclusive (.scalar (.int32 1))) .unbounded)) :=
    .range fun v hv => List.mem_singleton.mp hv ▸ .base rfl
  refine TypeRef.canonical_reads_back ?_ ?_ (.inr (.composite rfl ?_ ?_))
  · simp [person, habits, habit, mood, span, TypeRef.builtin, TypeDescriptor.builtin,
      TypeDescriptor.types, TypeKind.types, Field.allTypes, TypeKind.NamesDistinct]
  · simp [person, habits, habit, mood, span, TypeRef.builtin, TypeDescriptor.builtin,
      TypeDescriptor.types, TypeKind.types, Field.allTypes, TypeKind.ElementsPlain,
      TypeDescriptor.spansArray]
  · simp [TypeRef.builtin]
  · intro f name v hmem hne
    simp only [List.zip_cons_cons, List.zip_nil_right, List.mem_cons, List.not_mem_nil, or_false,
      Prod.mk.injEq] at hmem
    rcases hmem with ⟨rfl, rfl, rfl⟩ | ⟨rfl, rfl, rfl⟩ | ⟨rfl, rfl, rfl⟩
    · exact hhabits
    · exact hspan
    · exact absurd rfl hne

theorem TypeDescriptor.roundTrips_decoded {d : TypeDescriptor} {w : Wire} {v : Value}
    (hnames : ∀ p ∈ d.types, p.kind.NamesDistinct) (h : d.decode w = .ok v) : d.RoundTrips v := by
  by_cases hv : v = .null
  · exact hv ▸ d.roundTrips_null
  · exact (decode_inhabits h hv).roundTrips rfl hnames

/-- Whatever is read in a type can be written in it again and reads back the same, if names of fields
are distinct. -/
theorem TypeRef.decoded_reads_back {t : TypeRef} {w : Wire} {v : Value}
    (hnames : ∀ d ∈ t.descriptor.types, d.kind.NamesDistinct) (h : t.decode w = .ok v) :
    ∃ w', t.encode v = .ok w' ∧ t.decode w' = .ok v :=
  TypeDescriptor.roundTrips_decoded hnames h

/-- A domain over small integers in an array: read from wider integers in nested arrays that name other
elements, with a null among them. -/
theorem TypeRef.decoded_reads_back_wider :
    let count : TypeRef := ⟨⟨1, "count", "public", some 2, .domain (.builtin .int2 false), 1⟩, true⟩
    let counts : TypeRef := ⟨⟨2, "_count", "public", none, .array count, 2⟩, true⟩
    let w : Wire := .array "int8" [.array "other" [.scalar (.int64 7), .null], .scalar (.int16 9)]
    let v : Value := .array [.array [.domain (.scalar (.int16 7)), .null], .domain (.scalar (.int16 9))]
    counts.decode w = .ok v ∧ ∃ w', counts.encode v = .ok w' ∧ counts.decode w' = .ok v := by
  intro count counts w v
  have hread : counts.decode w = .ok v := by rfl
  refine ⟨hread, TypeRef.decoded_reads_back ?_ hread⟩
  simp [counts, count, TypeRef.builtin, TypeDescriptor.builtin, TypeDescriptor.types, TypeKind.types,
    TypeKind.NamesDistinct]

end TypedSql

import TypedSql.Catalog.Descriptor
import TypedSql.Catalog.Snapshot
import TypedSql.Proofs.Outcome
import Mathlib.Logic.Relation

/-! Types unfolded from the rows of a catalog without any memory, and the types they rest on. -/
namespace TypedSql

/-- The types a row refers to, in the order in which they are unfolded. -/
def Snapshot.references (source : Snapshot) (row : TypeRow) : List Oid :=
  match row.element, row.typeClass with
  | some element, _ => [element]
  | none, .composite => (source.attributesOf row.oid).map AttributeRow.typeOid
  | none, .domain => row.baseType.toList
  | none, .range => (source.subtypeOf? row.oid).toList
  | none, _ => []

/-- The row of a type refers to another type; the type 0 has no row. -/
def Snapshot.Refers (source : Snapshot) (oid other : Oid) : Prop :=
  oid ≠ 0 ∧ ∃ row, source.typeRow? oid = some row ∧ other ∈ source.references row

/-- Whether nothing is wrong with a row, whatever becomes of the types it refers to. -/
def Snapshot.Supports (source : Snapshot) (row : TypeRow) : Prop :=
  match row.element, row.typeClass with
  | some _, _ | none, .composite | none, .enum => True
  | none, .base => (BaseType.ofTypeName? row.name).isSome
  | none, .domain => row.baseType.isSome
  | none, .range => (source.subtypeOf? row.oid).isSome
  | none, _ => False

/-- A type that can be resolved if the types it refers to can be. -/
def Snapshot.Resolvable (source : Snapshot) (oid : Oid) : Prop :=
  oid = 0 ∨ ∃ row, source.typeRow? oid = some row ∧ source.Supports row

/-- The field of an attribute with a type; it may be null where its row does not refuse it. -/
def AttributeRow.field (a : AttributeRow) (d : TypeDescriptor) : Field := ⟨a.name, ⟨d, !a.notNull⟩⟩

/-- What the type of a row is made of, given the unfolding of the types it refers to. An element type
decides over the class; elements may be null, bases where the row does not refuse it, and subtypes may
not. -/
def Snapshot.unfoldKind (source : Snapshot) (unfold : Oid → Except Error TypeDescriptor) (row : TypeRow) :
    Except Error TypeKind :=
  match row.element, row.typeClass with
  | some element, _ => (fun d => .array ⟨d, true⟩) <$> unfold element
  | none, .base =>
    match BaseType.ofTypeName? row.name with
    | some b => .ok (.base b)
    | none => .error (.unresolved row.oid (.unsupportedBaseType row.name))
  | none, .composite =>
    .composite <$> (source.attributesOf row.oid).mapM fun a => a.field <$> unfold a.typeOid
  | none, .domain =>
    match row.baseType with
    | some base => (fun d => .domain ⟨d, !row.notNull⟩) <$> unfold base
    | none => .error (.unresolved row.oid (.unknownKind "domain"))
  | none, .enum => .ok (.enum (source.labelsOf row.oid))
  | none, .range =>
    match source.subtypeOf? row.oid with
    | some subtype => (fun d => .range ⟨d, false⟩) <$> unfold subtype
    | none => .error (.unresolved row.oid (.unknownKind "range"))
  | none, .pseudo => .error (.unresolved row.oid (.pseudoType row.name))
  | none, .multirange => .error (.unresolved row.oid (.unknownKind "multirange"))
  | none, .other code => .error (.unresolved row.oid (.unknownKind code))

/-- How many rows are of types off a path. -/
def Snapshot.remaining (source : Snapshot) (path : List Oid) : Nat :=
  source.types.countP fun row => row.oid ∉ path

theorem Snapshot.typeRow?_oid {source : Snapshot} {oid : Oid} {row : TypeRow}
    (h : source.typeRow? oid = some row) : row.oid = oid := by
  simpa using List.find?_some h

theorem Snapshot.remaining_lt {source : Snapshot} {oid : Oid} {row : TypeRow} {path : List Oid}
    (h : source.typeRow? oid = some row) (hpath : oid ∉ path) :
    source.remaining (oid :: path) < source.remaining path := by
  have hmem : row ∈ source.types := List.mem_of_find?_eq_some h
  have hoid := typeRow?_oid h
  obtain ⟨before, behind, htypes⟩ := List.append_of_mem hmem
  have hle (rows : List TypeRow) : rows.countP (fun row => row.oid ∉ oid :: path) ≤
      rows.countP (fun row => row.oid ∉ path) :=
    List.countP_mono_left fun row _ hrow => by simp at hrow ⊢; exact hrow.2
  have hbefore := hle before
  have hbehind := hle behind
  simp only [remaining, htypes, List.countP_append, List.countP_cons, hoid, List.mem_cons_self,
    not_true_eq_false, decide_false, hpath, not_false_eq_true, decide_true] at *
  simp only [Bool.false_eq_true, if_false, if_true] at *
  omega

/-- The descriptor of a row that is made of something. -/
def TypeRow.descriptor (row : TypeRow) (kind : TypeKind) : TypeDescriptor :=
  ⟨row.oid, row.name, row.schema, row.arrayOid, kind, 0⟩

/-- A type unfolded from its row, below the types of a path. A type met again on its path contains
itself. -/
def Snapshot.unfolding (source : Snapshot) (path : List Oid) (oid : Oid) : Except Error TypeDescriptor :=
  if oid = 0 then .ok .unknown
  else
    match _ : source.typeRow? oid with
    | none => .error (.unresolved oid .unknownType)
    | some row =>
      if _ : oid ∈ path then .error (.unresolved oid (.cycle row.name))
      else row.descriptor <$> source.unfoldKind (fun other => source.unfolding (oid :: path) other) row
termination_by source.remaining path
decreasing_by exact source.remaining_lt ‹_› ‹_›

namespace Snapshot

variable {source : Snapshot} {oid : Oid} {row : TypeRow} {path : List Oid} {d : TypeDescriptor}

@[simp] theorem unfolding_zero : source.unfolding path 0 = .ok .unknown := by
  rw [unfolding, if_pos rfl]

theorem unfolding_missing (h0 : oid ≠ 0) (h : source.typeRow? oid = none) :
    source.unfolding path oid = .error (.unresolved oid .unknownType) := by
  rw [unfolding, if_neg h0]
  split
  · rfl
  · simp_all

theorem unfolding_cycle (h0 : oid ≠ 0) (h : source.typeRow? oid = some row) (hpath : oid ∈ path) :
    source.unfolding path oid = .error (.unresolved oid (.cycle row.name)) := by
  rw [unfolding, if_neg h0]
  split <;> simp_all

theorem unfolding_row (h0 : oid ≠ 0) (h : source.typeRow? oid = some row) (hpath : oid ∉ path) :
    source.unfolding path oid =
      row.descriptor <$> source.unfoldKind (source.unfolding (oid :: path)) row := by
  rw [unfolding, if_neg h0]
  split <;> simp_all

section Kinds

variable {unfold : Oid → Except Error TypeDescriptor}

private theorem fields_eq (attributes : List AttributeRow) :
    (attributes.mapM fun a => a.field <$> unfold a.typeOid) =
      List.zipWith AttributeRow.field attributes <$>
        (attributes.map AttributeRow.typeOid).mapM unfold := by
  induction attributes with
  | nil => rfl
  | cons a rest ih =>
    rw [List.mapM_cons, List.map_cons, List.mapM_cons, ih]
    cases unfold a.typeOid with
    | error e => rfl
    | ok d => cases (rest.map AttributeRow.typeOid).mapM unfold <;> rfl

private theorem single_eq (oid : Oid) (build : TypeDescriptor → TypeKind) :
    build <$> unfold oid = (fun ds => (ds.head?.map build).getD .unknown) <$> [oid].mapM unfold := by
  rw [List.mapM_cons]
  cases unfold oid <;> rfl

/-- A row is made of the types it refers to, or it fails by itself and never for a cycle. -/
private theorem unfoldKind_cases (source : Snapshot) (row : TypeRow) :
    (source.Supports row ∧ ∃ build : List TypeDescriptor → TypeKind, ∀ unfold,
      source.unfoldKind unfold row = build <$> (source.references row).mapM unfold) ∨
    (¬ source.Supports row ∧ ∃ reason, (∀ name, reason ≠ .cycle name) ∧ ∀ unfold,
      source.unfoldKind unfold row = .error (.unresolved row.oid reason)) := by
  obtain ⟨oid, name, schema, typeClass, element, arrayOid, baseType, notNull⟩ := row
  cases element with
  | some element => exact .inl ⟨trivial, _, fun _ => single_eq element _⟩
  | none =>
    cases typeClass with
    | base =>
      cases h : BaseType.ofTypeName? name with
      | some b =>
        refine .inl ⟨by simp [Supports, h], fun _ => .base b, fun _ => ?_⟩
        simp only [unfoldKind, h]
        rfl
      | none =>
        refine .inr ⟨by simp [Supports, h], .unsupportedBaseType name, nofun, fun _ => ?_⟩
        simp only [unfoldKind, h]
    | composite =>
      refine .inl ⟨trivial,
        fun ds => .composite (List.zipWith AttributeRow.field (source.attributesOf oid) ds),
        fun unfold => ?_⟩
      change _ <$> _ = _ <$> ((source.attributesOf oid).map AttributeRow.typeOid).mapM unfold
      rw [fields_eq]
      cases ((source.attributesOf oid).map AttributeRow.typeOid).mapM unfold <;> rfl
    | domain =>
      cases baseType with
      | some base => exact .inl ⟨rfl, _, fun _ => single_eq base _⟩
      | none => exact .inr ⟨nofun, .unknownKind "domain", nofun, fun _ => rfl⟩
    | enum => exact .inl ⟨trivial, fun _ => .enum (source.labelsOf oid), fun _ => rfl⟩
    | range =>
      cases h : source.subtypeOf? oid with
      | some subtype =>
        refine .inl ⟨by simp [Supports, h],
          fun ds => (ds.head?.map fun d => .range ⟨d, false⟩).getD .unknown, fun unfold => ?_⟩
        simp only [unfoldKind, references, h]
        exact single_eq subtype _
      | none =>
        refine .inr ⟨by simp [Supports, h], .unknownKind "range", nofun, fun _ => ?_⟩
        simp only [unfoldKind, h]
    | pseudo => exact .inr ⟨id, .pseudoType name, nofun, fun _ => rfl⟩
    | multirange => exact .inr ⟨id, .unknownKind "multirange", nofun, fun _ => rfl⟩
    | other code => exact .inr ⟨id, .unknownKind code, nofun, fun _ => rfl⟩

variable {unfold' : Oid → Except Error TypeDescriptor} {kind : TypeKind}

theorem unfoldKind_succeeds : (∃ kind, source.unfoldKind unfold row = .ok kind) ↔
    source.Supports row ∧ ∀ other ∈ source.references row, ∃ d, unfold other = .ok d := by
  rcases unfoldKind_cases source row with ⟨hs, build, h⟩ | ⟨hs, reason, -, h⟩
  · rw [h, ← mapM_succeeds]
    constructor
    · rintro ⟨kind, hk⟩
      obtain ⟨ds, hds, -⟩ := map_eq_ok.mp hk
      exact ⟨hs, ds, hds⟩
    · rintro ⟨-, ds, hds⟩
      exact ⟨build ds, by rw [hds]; rfl⟩
  · simp [h, hs]

/-- A row that could be unfolded is made of the same in every way to unfold the types it refers to. -/
theorem unfoldKind_ok_of (h : source.unfoldKind unfold row = .ok kind)
    (hsame : ∀ other ∈ source.references row, ∀ d, unfold other = .ok d → unfold' other = .ok d) :
    source.unfoldKind unfold' row = .ok kind := by
  rcases unfoldKind_cases source row with ⟨-, build, hbuild⟩ | ⟨-, reason, -, hfail⟩
  · rw [hbuild] at h ⊢
    obtain ⟨ds, hds, rfl⟩ := map_eq_ok.mp h
    rw [mapM_ok_of hds hsame, ok_map]
  · rw [hfail] at h
    cases h

/-- Rows fail for a cycle only with a type they refer to. -/
theorem unfoldKind_cycle {o : Oid} {name : String}
    (h : source.unfoldKind unfold row = .error (.unresolved o (.cycle name))) :
    ∃ other ∈ source.references row, unfold other = .error (.unresolved o (.cycle name)) := by
  rcases unfoldKind_cases source row with ⟨-, build, hbuild⟩ | ⟨-, reason, hreason, hfail⟩
  · rw [hbuild] at h
    exact mapM_error (map_eq_error.mp h)
  · rw [hfail] at h
    simp only [Except.error.injEq, Error.unresolved.injEq] at h
    exact absurd h.2 (hreason name)

end Kinds

/-- A type that could be unfolded has no identifier or was made from its row. -/
theorem unfolding_ok (h : source.unfolding path oid = .ok d) :
    (oid = 0 ∧ d = .unknown) ∨
      (oid ≠ 0 ∧ oid ∉ path ∧ ∃ row kind, source.typeRow? oid = some row ∧ d = row.descriptor kind ∧
        source.unfoldKind (source.unfolding (oid :: path)) row = .ok kind) := by
  by_cases h0 : oid = 0
  · subst h0
    rw [unfolding_zero] at h
    cases h
    exact .inl ⟨rfl, rfl⟩
  · cases hrow : source.typeRow? oid with
    | none =>
      rw [unfolding_missing h0 hrow] at h
      cases h
    | some row =>
      by_cases hpath : oid ∈ path
      · rw [unfolding_cycle h0 hrow hpath] at h
        cases h
      · rw [unfolding_row h0 hrow hpath] at h
        obtain ⟨kind, hkind, rfl⟩ := map_eq_ok.mp h
        exact .inr ⟨h0, hpath, row, kind, rfl, rfl, hkind⟩

/-- The types a type refers to could be unfolded below it. -/
private theorem unfolding_below (h : source.unfolding path oid = .ok d) {other : Oid}
    (hrefers : source.Refers oid other) : ∃ d', source.unfolding (oid :: path) other = .ok d' := by
  obtain ⟨h0, row, hrow, hother⟩ := hrefers
  rcases unfolding_ok h with ⟨rfl, -⟩ | ⟨-, -, row', kind, hrow', -, hkind⟩
  · exact absurd rfl h0
  · obtain rfl : row = row' := Option.some.inj (hrow.symm.trans hrow')
    exact (unfoldKind_succeeds.mp ⟨kind, hkind⟩).2 other hother

/-- Another path that a type does not lead back to leaves its unfolding as it is. -/
theorem unfolding_ok_of {path' : List Oid} (h : source.unfolding path oid = .ok d)
    (hpath : ∀ p ∈ path', p ∉ path → ¬ Relation.ReflTransGen source.Refers oid p) :
    source.unfolding path' oid = .ok d := by
  induction path, oid using unfolding.induct source generalizing d path' with
  | case1 path => rwa [unfolding_zero] at h ⊢
  | case2 path oid h0 hrow =>
    rw [unfolding_missing h0 hrow] at h
    cases h
  | case3 path oid h0 row hrow hmem =>
    rw [unfolding_cycle h0 hrow hmem] at h
    cases h
  | case4 path oid h0 row hrow hmem ih =>
    rw [unfolding_row h0 hrow hmem] at h
    obtain ⟨kind, hkind, rfl⟩ := map_eq_ok.mp h
    have hmem' : oid ∉ path' := fun hin => hpath oid hin hmem .refl
    rw [unfolding_row h0 hrow hmem']
    refine map_eq_ok.mpr ⟨kind, unfoldKind_ok_of hkind fun other hother d' hd => ?_, rfl⟩
    refine ih other hd fun p hp hnot hreach => ?_
    rcases List.mem_cons.mp hp with rfl | hp
    · exact hnot List.mem_cons_self
    · exact hpath p hp (fun hin => hnot (List.mem_cons_of_mem oid hin))
        (.head ⟨h0, row, hrow, hother⟩ hreach)

/-- A type that could be unfolded leads to no type of its path. -/
private theorem unfolding_avoids (h : source.unfolding path oid = .ok d) {o : Oid}
    (hreach : Relation.ReflTransGen source.Refers oid o) (h0 : o ≠ 0) : o ∉ path := by
  induction hreach using Relation.ReflTransGen.head_induction_on generalizing path d with
  | refl =>
    rcases unfolding_ok h with ⟨rfl, -⟩ | ⟨-, hpath, -⟩
    · exact absurd rfl h0
    · exact hpath
  | head hrefers _ ih =>
    obtain ⟨d', hd⟩ := unfolding_below h hrefers
    exact fun hin => ih hd (List.mem_cons_of_mem _ hin)

/-- Every type that a type leads to could be unfolded if the type itself could be. -/
private theorem unfolding_reached (h : source.unfolding path oid = .ok d) {o : Oid}
    (hreach : Relation.ReflTransGen source.Refers oid o) : ∃ d', source.unfolding [] o = .ok d' := by
  induction hreach using Relation.ReflTransGen.head_induction_on generalizing path d with
  | refl => exact ⟨d, unfolding_ok_of h nofun⟩
  | head hrefers _ ih =>
    obtain ⟨d', hd⟩ := unfolding_below h hrefers
    exact ih hd

/-- No type that a type leads to leads to itself if the type could be unfolded. -/
theorem unfolding_acyclic (h : source.unfolding path oid = .ok d) {o : Oid}
    (hreach : Relation.ReflTransGen source.Refers oid o) : ¬ Relation.TransGen source.Refers o o := by
  intro hcycle
  obtain ⟨d', hd⟩ := unfolding_reached h hreach
  obtain ⟨c, hrefers, hback⟩ := Relation.TransGen.head'_iff.mp hcycle
  obtain ⟨d'', hc⟩ := unfolding_below hd hrefers
  exact unfolding_avoids hc hback hrefers.1 List.mem_cons_self

private theorem resolvable_of_ok (h : source.unfolding path oid = .ok d) : source.Resolvable oid := by
  rcases unfolding_ok h with ⟨rfl, -⟩ | ⟨-, -, row, kind, hrow, -, hkind⟩
  · exact .inl rfl
  · exact .inr ⟨row, hrow, (unfoldKind_succeeds.mp ⟨kind, hkind⟩).1⟩

private theorem unfolding_of_resolvable
    (h : ∀ o, Relation.ReflTransGen source.Refers oid o →
      source.Resolvable o ∧ ¬ Relation.TransGen source.Refers o o)
    (hpath : ∀ p ∈ path, ¬ Relation.ReflTransGen source.Refers oid p) :
    ∃ d, source.unfolding path oid = .ok d := by
  induction path, oid using unfolding.induct source with
  | case1 path => exact ⟨.unknown, unfolding_zero⟩
  | case2 path oid h0 hrow =>
    rcases (h oid .refl).1 with hzero | ⟨row, hrow', -⟩
    · exact absurd hzero h0
    · rw [hrow] at hrow'
      cases hrow'
  | case3 path oid h0 row hrow hmem => exact absurd .refl (hpath oid hmem)
  | case4 path oid h0 row hrow hmem ih =>
    have hsupports : source.Supports row := by
      rcases (h oid .refl).1 with hzero | ⟨row', hrow', hs⟩
      · exact absurd hzero h0
      · rw [hrow] at hrow'
        cases hrow'
        exact hs
    have hbelow : ∀ other ∈ source.references row, ∃ d, source.unfolding (oid :: path) other = .ok d := by
      intro other hother
      have hrefers : source.Refers oid other := ⟨h0, row, hrow, hother⟩
      refine ih other (fun o ho => h o (.head hrefers ho)) fun p hp hreach => ?_
      rcases List.mem_cons.mp hp with rfl | hp
      · exact (h p .refl).2 (.head' hrefers hreach)
      · exact hpath p hp (.head hrefers hreach)
    obtain ⟨kind, hkind⟩ := unfoldKind_succeeds.mpr ⟨hsupports, hbelow⟩
    exact ⟨row.descriptor kind, by rw [unfolding_row h0 hrow hmem, hkind]; rfl⟩

/-- A type can be unfolded if every type it leads to can be resolved and none leads to itself. -/
theorem unfolding_succeeds : (∃ d, source.unfolding [] oid = .ok d) ↔
    ∀ o, Relation.ReflTransGen source.Refers oid o →
      source.Resolvable o ∧ ¬ Relation.TransGen source.Refers o o := by
  constructor
  · rintro ⟨d, h⟩ o hreach
    obtain ⟨d', hd⟩ := unfolding_reached h hreach
    exact ⟨resolvable_of_ok hd, unfolding_acyclic h hreach⟩
  · exact fun h => unfolding_of_resolvable h nofun

/-- Types that lead to a type lead, with it, to the types it refers to. -/
theorem leads_below {other : Oid} (hpath : ∀ p ∈ path, Relation.TransGen source.Refers p oid)
    (hrefers : source.Refers oid other) : ∀ p ∈ oid :: path, Relation.TransGen source.Refers p other := by
  intro p hp
  rcases List.mem_cons.mp hp with rfl | hp
  · exact .single hrefers
  · exact (hpath p hp).tail hrefers

/-- A reported cycle is one. -/
theorem unfolding_reports {o : Oid} {name : String}
    (hpath : ∀ p ∈ path, Relation.TransGen source.Refers p oid)
    (h : source.unfolding path oid = .error (.unresolved o (.cycle name))) :
    Relation.ReflTransGen source.Refers oid o ∧ Relation.TransGen source.Refers o o := by
  induction path, oid using unfolding.induct source with
  | case1 path =>
    rw [unfolding_zero] at h
    cases h
  | case2 path oid h0 hrow =>
    rw [unfolding_missing h0 hrow] at h
    cases h
  | case3 path oid h0 row hrow hmem =>
    rw [unfolding_cycle h0 hrow hmem] at h
    cases h
    exact ⟨.refl, hpath _ hmem⟩
  | case4 path oid h0 row hrow hmem ih =>
    rw [unfolding_row h0 hrow hmem] at h
    obtain ⟨other, hother, hfail⟩ := unfoldKind_cycle (map_eq_error.mp h)
    have hrefers : source.Refers oid other := ⟨h0, row, hrow, hother⟩
    obtain ⟨hreach, hcycle⟩ := ih other (leads_below hpath hrefers) hfail
    exact ⟨.head hrefers hreach, hcycle⟩

end Snapshot
end TypedSql

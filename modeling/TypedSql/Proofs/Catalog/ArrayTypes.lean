import TypedSql.Proofs.Catalog.Memory
import TypedSql.Proofs.Conversion.Steps
import TypedSql.Sql.Identifier

/-! The array type over a type: made by hand from the type, or resolved from a row of its own. -/
namespace TypedSql

/-- The row that a type is resolved from. The type 0 is resolved from none. -/
def Snapshot.rowOf? (source : Snapshot) (oid : Oid) : Option TypeRow :=
  if oid = 0 then none else source.typeRow? oid

theorem Snapshot.rowOf?_eq_some {source : Snapshot} {oid : Oid} {row : TypeRow} :
    source.rowOf? oid = some row ↔ oid ≠ 0 ∧ source.typeRow? oid = some row := by
  rw [rowOf?]
  split <;> simp_all

/-- Two uses of types that statements and conversions cannot tell apart. -/
structure TypeRef.Alike (t u : TypeRef) : Prop where
  oid : t.oid = u.oid
  sqlName : t.sqlName = u.sqlName
  needsCast : t.needsCast = u.needsCast
  castType : Sql.castType t.descriptor = Sql.castType u.descriptor
  encode : ∀ v, t.encode v = u.encode v
  decode : ∀ w, t.decode w = u.decode w

/-- Of an array type only the identifier and the element matter, not the names in its row. -/
theorem TypeRef.alike_of_array {t u : TypeRef} {element : TypeRef} (hoid : t.oid = u.oid)
    (ht : t.kind = .array element) (hu : u.kind = .array element) : t.Alike u := by
  obtain ⟨⟨oid, name, schema, arrayOid, kind, stamp⟩, nullable⟩ := t
  obtain ⟨⟨oid', name', schema', arrayOid', kind', stamp'⟩, nullable'⟩ := u
  obtain ⟨element, elementNullable⟩ := element
  cases ht
  cases hu
  have hname (n s : String) (o : Oid) (a : Option Oid) (k : Nat) :
      TypeDescriptor.sqlName ⟨o, n, s, a, .array ⟨element, elementNullable⟩, k⟩ =
        element.sqlName ++ "[]" := by
    rw [TypeDescriptor.sqlName]
  refine ⟨hoid, ?_, ?_, ?_, fun v => ?_, fun w => ?_⟩
  · exact (hname ..).trans (hname ..).symm
  · simp only [TypeRef.needsCast, TypeDescriptor.needsCast]
  · simp only [Sql.castType]
  · cases v <;> simp [TypeRef.encode, Value.isNull, hname]
  · cases w <;> simp [TypeRef.decode, Wire.isNull, hname]

theorem TypeDescriptor.unstamped_oid (d : TypeDescriptor) : d.unstamped.oid = d.oid := by
  cases d
  rw [unstamped]

theorem TypeKind.unstamped_eq_array {kind : TypeKind} {d : TypeDescriptor} {nullable : Bool} :
    kind.unstamped = .array ⟨d, nullable⟩ ↔ ∃ e, kind = .array ⟨e, nullable⟩ ∧ e.unstamped = d := by
  cases kind with
  | array element =>
    obtain ⟨e, n⟩ := element
    simp only [unstamped, TypeRef.unstamped, array.injEq, TypeRef.mk.injEq]
    constructor
    · rintro ⟨rfl, rfl⟩
      exact ⟨e, ⟨rfl, rfl⟩, rfl⟩
    · rintro ⟨_, ⟨rfl, rfl⟩, rfl⟩
      exact ⟨rfl, rfl⟩
  | _ => simp [unstamped]

theorem TypeRef.unstamped_kind (t : TypeRef) : t.unstamped.kind = t.kind.unstamped := by
  obtain ⟨⟨_, _, _, _, _, _⟩, _⟩ := t
  rw [unstamped, TypeDescriptor.unstamped]
  rfl

namespace TypeSession

variable {source : Snapshot} {s : TypeSession} {d : TypeDescriptor}

theorem resolveAll_eq (s : TypeSession) (source : Snapshot) (calls : List (Oid × Bool)) :
    s.resolveAll source calls = s.resolveEach (calls.map fun call => ⟨source, call.1, call.2⟩) := by
  rw [resolveEach, List.foldl_map]
  rfl

/-- What a session keeps of a type names the array type that its row names. -/
theorem Sound.arrayOid (hs : s.Sound source) (hd : d ∈ s.cache) {row : TypeRow}
    (hrow : source.rowOf? d.oid = some row) : d.arrayOid = row.arrayOid := by
  obtain ⟨h0, hrow⟩ := Snapshot.rowOf?_eq_some.mp hrow
  rcases Snapshot.unfolding_ok (hs d hd) with ⟨hzero, -⟩ | ⟨-, -, row', kind, hrow', hsame, -⟩
  · exact absurd hzero h0
  · obtain rfl : row = row' := Option.some.inj (hrow.symm.trans hrow')
    obtain ⟨_, _, _, _, _, _⟩ := d
    rw [TypeDescriptor.unstamped, TypeRow.descriptor, TypeDescriptor.mk.injEq] at hsame
    exact hsame.2.2.2.1

/-- An array type whose element is kept is resolved to an array of that very instance. -/
theorem resolve_array (hsound : s.Sound source) (hcoherent : s.Coherent) (hidle : s.inProgress = [])
    (hd : d ∈ s.cache) {array : Oid} {row : TypeRow} (hrow : source.rowOf? array = some row)
    (helement : row.element = some d.oid) (nullable : Bool) :
    ∃ t, (s.resolve source array nullable).1 = .ok t ∧ t.oid = array ∧ t.kind = .array ⟨d, true⟩ := by
  obtain ⟨h0, hrow⟩ := Snapshot.rowOf?_eq_some.mp hrow
  have hrefers : source.Refers array d.oid := ⟨h0, row, hrow, by simp [Snapshot.references, helement]⟩
  have hcached : s.cached? d.oid = some d := hcoherent.cached?_eq_some.mpr ⟨hd, rfl⟩
  have hbelow : source.unfolding [array] d.oid = .ok d.unstamped :=
    hsound.unfolding_cached hcached (List.forall_mem_singleton.mpr (.single hrefers))
  have hunfolds : source.unfolding [] array = .ok (row.descriptor (.array ⟨d.unstamped, true⟩)) := by
    rw [Snapshot.unfolding_row h0 hrow List.not_mem_nil, Snapshot.unfoldKind]
    simp only [helement, hbelow, ok_map]
  have hgives := (resolve_gives array nullable s hsound hidle).1
  rw [hunfolds, ok_map] at hgives
  obtain ⟨t, ht, hunstamped⟩ := map_eq_ok.mp hgives
  have hkind : t.kind.unstamped = .array ⟨d.unstamped, true⟩ := by
    rw [← t.unstamped_kind, hunstamped]
    rfl
  obtain ⟨e, hkind, hsame⟩ := TypeKind.unstamped_eq_array.mp hkind
  -- the element is an instance that is kept, and of its type only one is
  have hcall := resolve_keeps hcoherent source array nullable
  obtain ⟨hmem, hoid, -⟩ := hcall.outcome t ht
  have he : e ∈ (s.resolve source array nullable).2.cache := by
    refine hcall.coherent.parts t.descriptor hmem ⟨e, true⟩ ?_
    rw [show t.descriptor.kind = .array ⟨e, true⟩ from hkind]
    exact List.mem_singleton_self _
  have heoid : e.oid = d.oid := by rw [← e.unstamped_oid, hsame, d.unstamped_oid]
  have hed : e = d := Option.some.inj
    ((hcall.coherent.cached?_eq_some.mpr ⟨he, heoid⟩).symm.trans
      (hcall.coherent.cached?_eq_some.mpr ⟨hcall.cache hd, rfl⟩))
  exact ⟨t, ht, hoid, hed ▸ hkind⟩

/-- In a session over one catalog, a type whose row names an array type has that array type in two ways: made
from the type, and resolved, now or after any further calls, from a row that is an array of the type. Neither
way fails, and nothing tells the two apart but the name in the row and what else the row says: they have one
identifier, one spelling and one cast, and convert all values alike in both directions, failures included. -/
theorem arrayOf_resolved (source : Snapshot) (start : Nat) (earlier later : List (Oid × Bool))
    {oid array : Oid} {nullable : Bool} (nullable' : Bool) {t : TypeRef} {row arrayRow : TypeRow}
    (ht : (((fresh start).resolveAll source earlier).resolve source oid nullable).1 = .ok t)
    (hrow : source.rowOf? oid = some row) (harray : row.arrayOid = some array)
    (harrayRow : source.rowOf? array = some arrayRow) (helement : arrayRow.element = some oid) :
    let s := (((fresh start).resolveAll source earlier).resolve source oid nullable).2.resolveAll source later
    ∃ made resolved, t.arrayOf? = some made ∧ (s.resolve source array nullable').1 = .ok resolved ∧
      made.Alike resolved := by
  intro s
  have hfresh : (fresh start).Sound source := nofun
  obtain ⟨hsound, hidle⟩ := resolveAll_sound hfresh rfl earlier
  have hcoherent := (resolveEach_keeps (coherent_fresh start)
    (earlier.map fun call => ⟨source, call.1, call.2⟩)).1
  rw [← resolveAll_eq] at hcoherent
  obtain ⟨-, hsound', hidle'⟩ := resolve_gives oid nullable _ hsound hidle
  have hcall := resolve_keeps hcoherent source oid nullable
  obtain ⟨hmem, rfl, -⟩ := hcall.outcome t ht
  obtain ⟨hsound'', hidle''⟩ := resolveAll_sound hsound' hidle' later
  obtain ⟨hcoherent'', hcache'', -⟩ := resolveEach_keeps hcall.coherent
    (later.map fun call => ⟨source, call.1, call.2⟩)
  rw [← resolveAll_eq] at hcoherent'' hcache''
  obtain ⟨resolved, hresolved, hoid, hkind⟩ :=
    resolve_array hsound'' hcoherent'' hidle'' (hcache'' hmem) harrayRow helement nullable'
  have hmade : t.descriptor.arrayOid = some array := (hsound'.arrayOid hmem hrow).trans harray
  refine ⟨_, resolved, by rw [TypeRef.arrayOf?, hmade]; rfl, hresolved, ?_⟩
  exact TypeRef.alike_of_array hoid.symm rfl hkind

/-- The array type over a composite type has a name of its own and was resolved first; a call in between
fails. -/
theorem arrayOf_resolved_visit :
    let row := (TypeRow.ofClass 20 "visit" "app" .composite).withArray 21
    let arrayRow := (TypeRow.ofClass 21 "visits" "app" .base).arrayOf 20
    let source : Snapshot :=
      ⟨[.ofClass 10 "mood" "app" .enum, row, arrayRow], [(20, [⟨"mood", 10, true⟩])], [(10, ["sad", "ok"])], []⟩
    let mood : TypeRef := ⟨⟨10, "mood", "app", none, .enum ["sad", "ok"], 1⟩, false⟩
    let visit : TypeRef := ⟨⟨20, "visit", "app", some 21, .composite [⟨"mood", mood⟩], 2⟩, true⟩
    let s := (((fresh 1).resolveAll source [(21, false)]).resolve source 20 true).2.resolveAll source [(99, true)]
    (((fresh 1).resolveAll source [(21, false)]).resolve source 20 true).1 = .ok visit ∧
      ∃ made resolved, visit.arrayOf? = some made ∧ (s.resolve source 21 true).1 = .ok resolved ∧
        made.name = "_visit" ∧ resolved.name = "visits" ∧ made.Alike resolved := by
  intro row arrayRow source mood visit s
  have ht : (((fresh 1).resolveAll source [(21, false)]).resolve source 20 true).1 = .ok visit := by rfl
  have hrow : source.rowOf? 20 = some row := rfl
  have harrayRow : source.rowOf? 21 = some arrayRow := rfl
  obtain ⟨made, resolved, hmade, hresolved, halike⟩ :=
    arrayOf_resolved source 1 [(21, false)] [(99, true)] true ht hrow rfl harrayRow rfl
  have hname : (s.resolve source 21 true).1.map TypeRef.name = .ok "visits" := by rfl
  rw [hresolved] at hname
  have hmadeName : visit.arrayOf?.map TypeRef.name = some "_visit" := by rfl
  rw [hmade] at hmadeName
  exact ⟨ht, made, resolved, hmade, hresolved, Option.some.inj hmadeName, Except.ok.inj hname, halike⟩

end TypeSession
end TypedSql

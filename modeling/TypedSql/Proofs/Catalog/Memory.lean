import TypedSql.Proofs.Catalog.Sessions
import TypedSql.Proofs.Catalog.Tree
import Mathlib.Data.List.Nodup

/-! What a session has resolved stays as it is, whatever becomes of the catalog. -/
namespace TypedSql

/-- What holds of a session at every step. -/
structure TypeSession.Coherent (s : TypeSession) : Prop where
  /-- No type is kept twice. -/
  oids : (s.cache.map TypeDescriptor.oid).Nodup
  /-- No two types that are kept share an instance. -/
  stamps : (s.cache.map TypeDescriptor.stamp).Nodup
  stamp_lt : ∀ d ∈ s.cache, d.stamp < s.nextStamp
  /-- The types that a kept type is made of are kept, and it is made of these instances. -/
  parts : ∀ d ∈ s.cache, ∀ t ∈ d.kind.parts, t.descriptor ∈ s.cache
  /-- The bounds of a range are used as never null. -/
  subtypes : ∀ d ∈ s.cache, ∀ t, d.kind = .range t → t.nullable = false
  /-- A type is kept only when it is no longer in progress. -/
  apart : ∀ oid ∈ s.inProgress, oid ≠ 0 ∧ ∀ d ∈ s.cache, d.oid ≠ oid

namespace TypeSession

variable {s : TypeSession} {oid : Oid} {d : TypeDescriptor}

theorem coherent_fresh (nextStamp : Nat) : (fresh nextStamp).Coherent :=
  ⟨.nil, .nil, nofun, nofun, nofun, nofun⟩

theorem cached?_eq_none : s.cached? oid = none ↔ ∀ d ∈ s.cache, d.oid ≠ oid := by
  simp [cached?]

theorem Coherent.cached?_eq_some (hs : s.Coherent) :
    s.cached? oid = some d ↔ d ∈ s.cache ∧ d.oid = oid := by
  constructor
  · intro h
    exact ⟨List.mem_of_find?_eq_some h, by simpa using List.find?_some h⟩
  · rintro ⟨hd, rfl⟩
    cases hfound : s.cached? d.oid with
    | none => exact absurd rfl (cached?_eq_none.mp hfound d hd)
    | some e =>
      have he : e ∈ s.cache := List.mem_of_find?_eq_some hfound
      have hoid : e.oid = d.oid := by simpa using List.find?_some hfound
      rw [List.inj_on_of_nodup_map hs.oids he hd hoid]

end TypeSession

namespace Resolving
open TypeSession

variable {α β : Type} {s : TypeSession} {P : α → List TypeDescriptor → Prop}

/-- A step from a session keeps what the session has kept and leaves the same types in progress, whether or
not it fails; where it succeeds, `P` holds of its outcome and of what is kept then. -/
structure Keeps (s : TypeSession) (step : Resolving α) (P : α → List TypeDescriptor → Prop) : Prop where
  coherent : (step.run s).2.Coherent
  cache : s.cache ⊆ (step.run s).2.cache
  inProgress : (step.run s).2.inProgress = s.inProgress
  outcome : ∀ a, (step.run s).1 = .ok a → P a (step.run s).2.cache

theorem Keeps.pure {a : α} (hs : s.Coherent) (ha : P a s.cache) : Keeps s (pure a) P :=
  ⟨hs, fun _ h => h, rfl, fun _ h => Except.ok.inj h ▸ ha⟩

theorem Keeps.throw (hs : s.Coherent) (e : Error) : Keeps s (throw e) P :=
  ⟨hs, fun _ h => h, rfl, nofun⟩

theorem Keeps.bind {Q : β → List TypeDescriptor → Prop} {step : Resolving α} {next : α → Resolving β}
    (h : Keeps s step P)
    (hnext : ∀ a s', s'.Coherent → s.cache ⊆ s'.cache → s'.inProgress = s.inProgress → P a s'.cache →
      Keeps s' (next a) Q) :
    Keeps s (step >>= next) Q := by
  obtain ⟨hcoherent, hcache, hprogress, houtcome⟩ := h
  rcases hstep : step.run s with ⟨e | a, s'⟩
  · rw [hstep] at hcoherent hcache hprogress
    have hrun : (step >>= next).run s = (.error e, s') := by rw [run_bind, hstep]
    exact ⟨by rwa [hrun], by rwa [hrun], by rwa [hrun], by rw [hrun]; nofun⟩
  · rw [hstep] at hcoherent hcache hprogress houtcome
    have hrun : (step >>= next).run s = (next a).run s' := by rw [run_bind, hstep]
    obtain ⟨hcoherent', hcache', hprogress', houtcome'⟩ :=
      hnext a s' hcoherent hcache hprogress (houtcome a rfl)
    exact ⟨by rwa [hrun], by rw [hrun]; exact fun d hd => hcache' (hcache hd),
      by rw [hrun, hprogress', hprogress], by rwa [hrun]⟩

theorem Keeps.map {Q : β → List TypeDescriptor → Prop} {step : Resolving α} {f : α → β}
    (h : Keeps s step P) (hf : ∀ a cache, P a cache → Q (f a) cache) :
    Keeps s (step >>= fun a => Pure.pure (f a)) Q :=
  h.bind fun a s' hs' _ _ ha => .pure hs' (hf a s'.cache ha)

/-- A step may be chosen after a look at the session. -/
theorem Keeps.get {next : TypeSession → Resolving α} (h : Keeps s (next s) P) :
    Keeps s (MonadState.get >>= next) P :=
  ⟨h.coherent, h.cache, h.inProgress, h.outcome⟩

/-- A question put to the catalog is noted and changes nothing else. -/
theorem Keeps.ask (q : CatalogQuery) {step : Resolving α} (hs : s.Coherent)
    (h : ∀ s', s'.Coherent → s'.cache = s.cache → s'.inProgress = s.inProgress → Keeps s' step P) :
    Keeps s (Resolving.ask q >>= fun _ => step) P :=
  have hasked : TypeSession.Coherent { s with queries := s.queries ++ [q] } :=
    ⟨hs.oids, hs.stamps, hs.stamp_lt, hs.parts, hs.subtypes, hs.apart⟩
  have hstep := h { s with queries := s.queries ++ [q] } hasked rfl rfl
  ⟨hstep.coherent, hstep.cache, hstep.inProgress, hstep.outcome⟩

/-- A step does not keep the type that is marked meanwhile. -/
theorem Keeps.marking {oid : Oid} {step : Resolving α} (hs : s.Coherent) (h0 : oid ≠ 0)
    (hnew : ∀ d ∈ s.cache, d.oid ≠ oid)
    (h : ∀ s', s'.Coherent → s'.cache = s.cache → Keeps s' step P) :
    Keeps s (Resolving.marking oid step) fun a cache => P a cache ∧ ∀ d ∈ cache, d.oid ≠ oid := by
  have hmarked : TypeSession.Coherent { s with inProgress := oid :: s.inProgress } := by
    refine ⟨hs.oids, hs.stamps, hs.stamp_lt, hs.parts, hs.subtypes, fun o ho => ?_⟩
    rcases List.mem_cons.mp ho with rfl | ho
    · exact ⟨h0, hnew⟩
    · exact hs.apart o ho
  obtain ⟨hcoherent, hcache, hprogress, houtcome⟩ := h _ hmarked rfl
  have hunmarked := hcoherent.apart oid (by rw [hprogress]; exact List.mem_cons_self)
  have herase := (congrArg (List.erase · oid) hprogress).trans (List.erase_cons_head oid s.inProgress)
  refine ⟨⟨hcoherent.oids, hcoherent.stamps, hcoherent.stamp_lt, hcoherent.parts, hcoherent.subtypes,
    fun o ho => ?_⟩, hcache, herase, fun a ha => ⟨houtcome a ha, hunmarked.2⟩⟩
  exact hcoherent.apart o (List.mem_of_mem_erase ho)

/-- A type is kept under a stamp of its own, once its parts are. -/
theorem Keeps.remember {d : TypeDescriptor} (hs : s.Coherent) (hnew : ∀ e ∈ s.cache, e.oid ≠ d.oid)
    (hapart : d.oid ∉ s.inProgress) (hparts : ∀ t ∈ d.kind.parts, t.descriptor ∈ s.cache)
    (hsubtypes : ∀ t, d.kind = .range t → t.nullable = false) :
    Keeps s (Resolving.remember d) fun e cache => e ∈ cache ∧ e.oid = d.oid := by
  refine ⟨⟨?_, ?_, ?_, ?_, ?_, ?_⟩, fun _ h => List.mem_cons_of_mem _ h, rfl, fun e he => ?_⟩
  · refine List.nodup_cons.mpr ⟨fun hmem => ?_, hs.oids⟩
    obtain ⟨e, he, hoid⟩ := List.mem_map.mp hmem
    exact hnew e he hoid
  · refine List.nodup_cons.mpr ⟨fun hmem => ?_, hs.stamps⟩
    obtain ⟨e, he, hstamp⟩ := List.mem_map.mp hmem
    exact absurd hstamp (Nat.ne_of_lt (hs.stamp_lt e he))
  · exact List.forall_mem_cons.mpr
      ⟨Nat.lt_succ_self _, fun e he => Nat.lt_succ_of_lt (hs.stamp_lt e he)⟩
  · exact List.forall_mem_cons.mpr ⟨fun t ht => List.mem_cons_of_mem _ (hparts t ht),
      fun e he t ht => List.mem_cons_of_mem _ (hs.parts e he t ht)⟩
  · exact List.forall_mem_cons.mpr ⟨hsubtypes, hs.subtypes⟩
  · intro o ho
    obtain ⟨h0, hcache⟩ := hs.apart o ho
    exact ⟨h0, List.forall_mem_cons.mpr ⟨fun hoid => hapart (hoid ▸ ho), hcache⟩⟩
  · cases Except.ok.inj he
    exact ⟨List.mem_cons_self, rfl⟩

section Kinds

variable {resolve : Oid → Resolving TypeDescriptor}

/-- Every step resolves a type to one that is kept then. -/
def KeepsAll (resolve : Oid → Resolving TypeDescriptor) : Prop :=
  ∀ (oid : Oid) (s : TypeSession), s.Coherent →
    Keeps s (resolve oid) fun d cache => d ∈ cache ∧ d.oid = oid

private theorem fields_keeps (h : KeepsAll resolve) (hs : s.Coherent) (attributes : List AttributeRow) :
    Keeps s (Resolving.fields resolve attributes) fun fields cache =>
      ∀ f ∈ fields, f.type.descriptor ∈ cache := by
  induction attributes generalizing s with
  | nil => exact .pure hs nofun
  | cons a rest ih =>
    refine (h a.typeOid s hs).bind fun d s' hs' _ _ hd => ?_
    refine (ih hs').bind fun fields s'' hs'' hcache _ hfields => ?_
    exact .pure hs'' (List.forall_mem_cons.mpr ⟨hcache hd.1, hfields⟩)

private theorem kind_keeps (source : Snapshot) (h : KeepsAll resolve) (hs : s.Coherent) (row : TypeRow) :
    Keeps s (Resolving.kind source resolve row) fun kind cache =>
      (∀ t ∈ kind.parts, t.descriptor ∈ cache) ∧ ∀ t, kind = .range t → t.nullable = false := by
  obtain ⟨oid, name, schema, typeClass, element, arrayOid, baseType, notNull⟩ := row
  have single (part : Oid) (build : TypeDescriptor → TypeKind) (nullable : Bool)
      (hbuild : ∀ d, (build d).parts = [⟨d, nullable⟩])
      (hrange : ∀ d t, build d = .range t → t.nullable = false) {s : TypeSession} (hs : s.Coherent) :
      Keeps s (resolve part >>= fun d => Pure.pure (build d)) fun kind cache =>
        (∀ t ∈ kind.parts, t.descriptor ∈ cache) ∧ ∀ t, kind = .range t → t.nullable = false := by
    refine (h part s hs).map fun d cache hd => ⟨?_, hrange d⟩
    rw [hbuild]
    exact List.forall_mem_singleton.mpr hd.1
  cases element with
  | some element =>
    exact single element (fun d => .array ⟨d, true⟩) true (fun _ => rfl) (by rintro d t ⟨⟩) hs
  | none =>
    cases typeClass with
    | base =>
      rw [Resolving.kind]
      cases BaseType.ofTypeName? name with
      | some b => exact .pure hs ⟨List.forall_mem_nil _, by rintro t ⟨⟩⟩
      | none => exact .throw hs _
    | composite =>
      refine .ask _ hs fun s' hs' _ _ => (fields_keeps h hs' _).map fun fields cache hfields => ?_
      exact ⟨List.forall_mem_map.mpr hfields, by rintro t ⟨⟩⟩
    | domain =>
      cases baseType with
      | some base =>
        exact single base (fun d => .domain ⟨d, !notNull⟩) (!notNull) (fun _ => rfl) (by rintro d t ⟨⟩) hs
      | none => exact .throw hs _
    | enum => exact .ask _ hs fun s' hs' _ _ => .pure hs' ⟨List.forall_mem_nil _, by rintro t ⟨⟩⟩
    | range =>
      refine .ask _ hs fun s' hs' _ _ => ?_
      cases source.subtypeOf? oid with
      | some subtype =>
        exact single subtype (fun d => .range ⟨d, false⟩) false (fun _ => rfl) (by rintro d t ⟨⟩; rfl) hs'
      | none => exact .throw hs' _
    | pseudo => exact .throw hs _
    | multirange => exact .throw hs _
    | other code => exact .throw hs _

end Kinds

/-- Resolving a type keeps what was kept before, and the type itself if it succeeds. -/
theorem descriptor_keeps (source : Snapshot) (depth : Nat) :
    KeepsAll (Resolving.descriptor source depth) := by
  induction depth with
  | zero => exact fun oid s hs => .throw hs _
  | succ depth ih =>
    intro oid s hs
    refine .get ?_
    cases hcached : s.cached? oid with
    | some d => exact .pure hs (hs.cached?_eq_some.mp hcached)
    | none =>
      have hnew := cached?_eq_none.mp hcached
      dsimp only
      by_cases h0 : oid = 0
      · subst h0
        rw [if_pos rfl]
        exact .remember hs hnew (fun hmem => (hs.apart 0 hmem).1 rfl) nofun nofun
      · rw [if_neg h0]
        refine .ask _ hs fun s' hs' hcache hprogress => ?_
        rw [← hcache] at hnew
        cases hrow : source.typeRow? oid with
        | none => exact .throw hs' _
        | some row =>
          refine .get ?_
          by_cases hmem : oid ∈ s'.inProgress
          · rw [if_pos (by simpa using hmem)]
            exact .throw hs' _
          · rw [if_neg (by simpa using hmem)]
            have hkind := Keeps.marking hs' h0 hnew fun s'' hs'' _ => kind_keeps source ih hs'' row
            refine hkind.bind fun kind s'' hs'' _ hprogress'' hkept => ?_
            have hoid := Snapshot.typeRow?_oid hrow
            rw [← hprogress'', ← hoid] at hmem
            rw [← hoid]
            exact .remember hs'' (hoid ▸ hkept.2) hmem hkept.1.1 hkept.1.2

end Resolving

namespace TypeSession

variable {s : TypeSession} {oid : Oid} {d : TypeDescriptor}

/-- A call on a session, with the catalog as it stands at the time. -/
structure Call where
  source : Snapshot
  oid : Oid
  nullable : Bool

/-- The session behind some calls, whether they succeed or fail. -/
def resolveEach (s : TypeSession) (calls : List Call) : TypeSession :=
  calls.foldl (fun s call => (s.resolve call.source call.oid call.nullable).2) s

/-- A call keeps what was kept before, and the type that it resolves if it succeeds. -/
theorem resolve_keeps (hs : s.Coherent) (source : Snapshot) (oid : Oid) (nullable : Bool) :
    Resolving.Keeps s (Resolving.type source oid nullable) fun t cache =>
      t.descriptor ∈ cache ∧ t.oid = oid ∧ t.nullable = nullable :=
  (Resolving.descriptor_keeps source _ oid s hs).map fun _ _ h => ⟨h.1, h.2, rfl⟩

/-- A type that is kept is not resolved again, and nothing is asked about it. -/
theorem resolve_cached (h : s.cached? oid = some d) (source : Snapshot) (nullable : Bool) :
    s.resolve source oid nullable = (.ok ⟨d, nullable⟩, s) := by
  have hget : (get : Resolving TypeSession).run s = (.ok s, s) := rfl
  have hdescriptor : (Resolving.descriptor source (source.typeCount + 1) oid).run s = (.ok d, s) := by
    rw [Resolving.descriptor, run_bind, hget]
    simp only [h]
    rfl
  rw [resolve, Resolving.type, Resolving.depthFor, run_bind, hdescriptor]
  rfl

theorem resolveEach_keeps (hs : s.Coherent) (calls : List Call) :
    (s.resolveEach calls).Coherent ∧ s.cache ⊆ (s.resolveEach calls).cache ∧
      (s.resolveEach calls).inProgress = s.inProgress := by
  induction calls generalizing s with
  | nil => exact ⟨hs, fun _ h => h, rfl⟩
  | cons call rest ih =>
    have hcall := resolve_keeps hs call.source call.oid call.nullable
    obtain ⟨hrest, hcache, hprogress⟩ := ih hcall.coherent
    exact ⟨hrest, fun d hd => hcache (hcall.cache hd), hprogress.trans hcall.inProgress⟩

/-- Behind any calls, failed ones among them and the catalog changed between them, no type is in progress.
A type that was resolved is kept with the instances of the types it is made of; no later call replaces
it, and all later uses of it get its instance with the nullability they ask for, without a question
to the catalog. -/
theorem remembers_resolved (start : Nat) (earlier later : List Call) :
    let s := (fresh start).resolveEach earlier
    let s' := s.resolveEach later
    s.inProgress = [] ∧
      (∀ source oid nullable t, (s.resolve source oid nullable).1 = .ok t →
        t.nullable = nullable ∧ (s.resolve source oid nullable).2.cached? oid = some t.descriptor) ∧
      (∀ oid d, s.cached? oid = some d →
        d.oid = oid ∧ s'.cached? oid = some d ∧
          (∀ nullable, s'.lookup? oid nullable = some ⟨d, nullable⟩) ∧
          (∀ source nullable, s'.resolve source oid nullable = (.ok ⟨d, nullable⟩, s')) ∧
          ∀ t ∈ d.kind.parts, s.cached? t.oid = some t.descriptor) ∧
      ∀ oid d oid' d', s.cached? oid = some d → s.cached? oid' = some d' → d.stamp = d'.stamp →
        oid = oid' := by
  intro s s'
  obtain ⟨hs, -, hprogress⟩ := resolveEach_keeps (coherent_fresh start) earlier
  obtain ⟨hs', hcache, -⟩ := resolveEach_keeps hs later
  refine ⟨hprogress, fun source oid nullable t ht => ?_, fun oid d hd => ?_, ?_⟩
  · have hcall := resolve_keeps hs source oid nullable
    obtain ⟨hmem, hoid, hnullable⟩ := hcall.outcome t ht
    exact ⟨hnullable, hcall.coherent.cached?_eq_some.mpr ⟨hmem, hoid⟩⟩
  · obtain ⟨hmem, hoid⟩ := hs.cached?_eq_some.mp hd
    have hkept : s'.cached? oid = some d := hs'.cached?_eq_some.mpr ⟨hcache hmem, hoid⟩
    refine ⟨hoid, hkept, fun nullable => ?_, fun source nullable => resolve_cached hkept source nullable,
      fun t ht => ?_⟩
    · rw [lookup?, hkept, Option.map_some]
    · exact hs.cached?_eq_some.mpr ⟨hs.parts d hmem t ht, rfl⟩
  · intro oid d oid' d' hd hd' hstamp
    obtain ⟨hmem, rfl⟩ := hs.cached?_eq_some.mp hd
    obtain ⟨hmem', rfl⟩ := hs.cached?_eq_some.mp hd'
    rw [List.inj_on_of_nodup_map hs.stamps hmem hmem' hstamp]

/-- A composite type fails over its second member, and its first member is kept. -/
example :
    let source : Snapshot := ⟨[.ofClass 10 "pair" "app" .composite, .ofClass 11 "mood" "app" .enum],
      [(10, [⟨"a", 11, true⟩, ⟨"b", 12, true⟩])], [], []⟩
    let s := new.resolveEach [⟨source, 10, true⟩]
    s.inProgress = [] ∧ s.cache.map TypeDescriptor.oid = [11] := by
  decide

end TypeSession
end TypedSql

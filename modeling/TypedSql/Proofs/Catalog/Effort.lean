import TypedSql.Proofs.Catalog.Memory
import Mathlib.Logic.Function.Iterate

/-! What resolving a type takes. The types in progress have rows of their own, so the rows bound how deep
one resolution nests in another; and a row is read again only for a type that is met again below itself,
which ends the call. -/
namespace TypedSql

namespace TypeSession

/-- The types a session has kept. -/
def known (s : TypeSession) : List Oid := s.cache.map TypeDescriptor.oid

theorem mem_known {s : TypeSession} {oid : Oid} : oid ∈ s.known ↔ (s.cached? oid).isSome = true := by
  simp [known, cached?, List.find?_isSome]

/-- A session with another question put to the catalog. -/
def afterAsking (s : TypeSession) (q : CatalogQuery) : TypeSession :=
  { s with queries := s.queries ++ [q] }

def afterMarking (s : TypeSession) (oid : Oid) : TypeSession :=
  { s with inProgress := oid :: s.inProgress }

def afterUnmarking (s : TypeSession) (oid : Oid) : TypeSession :=
  { s with inProgress := s.inProgress.erase oid }

/-- A session that has kept another type. -/
def afterKeeping (s : TypeSession) (d : TypeDescriptor) : TypeSession :=
  { s with cache := { d with stamp := s.nextStamp } :: s.cache, nextStamp := s.nextStamp + 1 }

/-- A session that has asked some questions since `base` and met no failure: it read no row twice, and the
types whose rows it read are new, and kept or still in progress. -/
structure Underway (base s : TypeSession) (asked : List CatalogQuery) : Prop where
  queries : s.queries = base.queries ++ asked
  known : base.known ⊆ s.known
  once : ∀ oid, asked.count (.typeRow oid) ≤ 1
  read : ∀ oid, .typeRow oid ∈ asked → oid ∉ base.known ∧ (oid ∈ s.known ∨ oid ∈ s.inProgress)

/-- A session that has asked some questions since `base`, whether or not it met a failure. -/
structure Spent (base s : TypeSession) (asked : List CatalogQuery) : Prop where
  queries : s.queries = base.queries ++ asked
  twice : ∀ oid, asked.count (.typeRow oid) ≤ 2
  once : ∀ oid ∈ s.known, asked.count (.typeRow oid) ≤ 1

section Questions

variable {base s : TypeSession} {asked : List CatalogQuery} {oid : Oid}

theorem underway_refl (s : TypeSession) : Underway s s [] :=
  ⟨(List.append_nil _).symm, fun _ h => h, fun _ => Nat.zero_le _, nofun⟩

theorem Underway.spent (h : Underway base s asked) : Spent base s asked :=
  ⟨h.queries, fun oid => Nat.le_succ_of_le (h.once oid), fun oid _ => h.once oid⟩

theorem Underway.queries_asking (h : Underway base s asked) (q : CatalogQuery) :
    (s.afterAsking q).queries = base.queries ++ (asked ++ [q]) := by
  rw [afterAsking, h.queries, List.append_assoc]

/-- A question that reads no row of a type leaves a session underway. -/
theorem Underway.asking (h : Underway base s asked) {q : CatalogQuery} (hq : ∀ oid, q ≠ .typeRow oid) :
    Underway base (s.afterAsking q) (asked ++ [q]) := by
  have hcount (oid : Oid) : (asked ++ [q]).count (.typeRow oid) = asked.count (.typeRow oid) := by
    rw [List.count_append, List.count_singleton, if_neg (by simpa using hq oid), Nat.add_zero]
  refine ⟨h.queries_asking q, h.known, fun oid => ?_, fun oid hmem => h.read oid ?_⟩
  · rw [hcount]
    exact h.once oid
  · rw [← List.count_pos_iff, hcount] at hmem
    exact List.count_pos_iff.mp hmem

private theorem count_typeRow (asked : List CatalogQuery) (oid o : Oid) :
    (asked ++ [CatalogQuery.typeRow oid]).count (.typeRow o) =
      asked.count (.typeRow o) + if oid = o then 1 else 0 := by
  rw [List.count_append, List.count_singleton]
  simp

/-- The row of a type that is not kept is read for the first or, if the type is in progress, for the second
time. -/
theorem Underway.reading (h : Underway base s asked) (hnew : oid ∉ s.known) :
    Spent base (s.afterAsking (.typeRow oid)) (asked ++ [.typeRow oid]) := by
  refine ⟨h.queries_asking _, fun o => ?_, fun o ho => ?_⟩
  · have hbefore := h.once o
    rw [count_typeRow]
    split <;> omega
  · have hne : oid ≠ o := fun he => hnew (he ▸ ho)
    rw [count_typeRow, if_neg hne]
    exact h.once o

/-- A type that is neither kept nor in progress has a row that was not read before. -/
theorem Underway.marking (h : Underway base s asked) (hnew : oid ∉ s.known) (hidle : oid ∉ s.inProgress) :
    Underway base ((s.afterAsking (.typeRow oid)).afterMarking oid) (asked ++ [.typeRow oid]) := by
  have hunread : .typeRow oid ∉ asked := fun hmem => (h.read oid hmem).2.elim hnew hidle
  refine ⟨h.queries_asking _, h.known, fun o => ?_, fun o ho => ?_⟩
  · rw [count_typeRow]
    by_cases he : oid = o
    · subst he
      have hnone : asked.count (.typeRow oid) = 0 := List.count_eq_zero_of_not_mem hunread
      rw [if_pos rfl]
      omega
    · rw [if_neg he]
      exact h.once o
  · rcases List.mem_append.mp ho with ho | ho
    · exact (h.read o ho).imp_right (Or.imp_right (List.mem_cons_of_mem oid))
    · obtain rfl : o = oid := by simpa using ho
      exact ⟨fun hmem => hnew (h.known hmem), .inr List.mem_cons_self⟩

/-- A type may be kept instead of being in progress. -/
theorem Underway.keeping (h : Underway base s asked) (d : TypeDescriptor) :
    Underway base ((s.afterUnmarking d.oid).afterKeeping d) asked := by
  refine ⟨h.queries, fun o ho => List.mem_cons_of_mem _ (h.known ho), h.once, fun o ho => ?_⟩
  refine (h.read o ho).imp_right fun hwhere => ?_
  by_cases he : o = d.oid
  · subst he
    exact .inl List.mem_cons_self
  · exact hwhere.imp (List.mem_cons_of_mem _) (List.mem_erase_of_ne he).mpr

end Questions

end TypeSession

namespace Resolving
open TypeSession

variable {α β : Type} {base s : TypeSession} {asked : List CatalogQuery}

/-- A step from a session ends as another one does, with the same types in progress as before, and not for
want of depth; it is underway since `base` unless it fails. -/
structure Bounded (base s : TypeSession) (step other : Resolving α) : Prop where
  same : step.run s = other.run s
  inProgress : (step.run s).2.inProgress = s.inProgress
  ok : ∀ a, (step.run s).1 = .ok a → ∃ asked, Underway base (step.run s).2 asked
  error : ∀ e, (step.run s).1 = .error e →
    (∀ oid, e ≠ .unresolved oid .tooDeep) ∧ ∃ asked, Spent base (step.run s).2 asked

theorem Bounded.pure (h : Underway base s asked) (a : α) : Bounded base s (pure a) (pure a) :=
  ⟨rfl, rfl, fun _ _ => ⟨asked, h⟩, nofun⟩

theorem Bounded.throw (h : Spent base s asked) {e : Error} (he : ∀ oid, e ≠ .unresolved oid .tooDeep) :
    Bounded base s (throw e : Resolving α) (throw e) :=
  ⟨rfl, rfl, nofun, fun _ h' => ⟨Except.error.inj h' ▸ he, asked, h⟩⟩

theorem Bounded.bind {step other : Resolving α} {next next' : α → Resolving β}
    (h : Bounded base s step other)
    (hnext : ∀ a s' asked, Underway base s' asked → s'.inProgress = s.inProgress →
      Bounded base s' (next a) (next' a)) :
    Bounded base s (step >>= next) (other >>= next') := by
  obtain ⟨hsame, hprogress, hok, herror⟩ := h
  rcases hstep : step.run s with ⟨e | a, s'⟩
  · rw [hstep] at hprogress herror
    have hrun : (step >>= next).run s = (.error e, s') := by rw [run_bind, hstep]
    have hrun' : (other >>= next').run s = (.error e, s') := by rw [run_bind, ← hsame, hstep]
    refine ⟨by rw [hrun, hrun'], by rwa [hrun], by rw [hrun]; nofun, fun e' he' => ?_⟩
    rw [hrun] at he' ⊢
    cases he'
    exact herror e rfl
  · rw [hstep] at hprogress hok
    have hrun : (step >>= next).run s = (next a).run s' := by rw [run_bind, hstep]
    have hrun' : (other >>= next').run s = (next' a).run s' := by rw [run_bind, ← hsame, hstep]
    obtain ⟨asked, hs'⟩ := hok a rfl
    obtain ⟨hsame', hprogress', hok', herror'⟩ := hnext a s' asked hs' hprogress
    exact ⟨by rw [hrun, hrun', hsame'], by rw [hrun, hprogress', hprogress], by rwa [hrun], by rwa [hrun]⟩

/-- A step may be chosen after a look at the session. -/
theorem Bounded.get {next next' : TypeSession → Resolving α} (h : Bounded base s (next s) (next' s)) :
    Bounded base s (MonadState.get >>= next) (MonadState.get >>= next') :=
  ⟨h.same, h.inProgress, h.ok, h.error⟩

theorem Bounded.ask {q : CatalogQuery} {step other : Resolving α}
    (h : Bounded base (s.afterAsking q) step other) :
    Bounded base s (Resolving.ask q >>= fun _ => step) (Resolving.ask q >>= fun _ => other) :=
  ⟨h.same, h.inProgress, h.ok, h.error⟩

theorem Bounded.remember {d : TypeDescriptor} (h : Underway base (s.afterKeeping d) asked) :
    Bounded base s (Resolving.remember d) (Resolving.remember d) :=
  ⟨rfl, rfl, fun _ _ => ⟨asked, h⟩, nofun⟩

/-- The type of a row is kept once it is known what it is made of, and is in progress until then. -/
theorem Bounded.marking {oid : Oid} {step other : Resolving α} {next : α → TypeDescriptor}
    (h : Bounded base (s.afterMarking oid) step other) (hnext : ∀ a, (next a).oid = oid) :
    Bounded base s (Resolving.marking oid step >>= fun a => Resolving.remember (next a))
      (Resolving.marking oid other >>= fun a => Resolving.remember (next a)) := by
  obtain ⟨hsame, hprogress, hok, herror⟩ := h
  have hrun (step : Resolving α) : (Resolving.marking oid step).run s =
      ((step.run (s.afterMarking oid)).1, (step.run (s.afterMarking oid)).2.afterUnmarking oid) := rfl
  have hunmarked : ((step.run (s.afterMarking oid)).2.afterUnmarking oid).inProgress = s.inProgress :=
    (congrArg (List.erase · oid) hprogress).trans (List.erase_cons_head oid s.inProgress)
  have hother : (Resolving.marking oid other >>= fun a => Resolving.remember (next a)).run s =
      (Resolving.marking oid step >>= fun a => Resolving.remember (next a)).run s := by
    rw [run_bind, run_bind, hrun, hrun, hsame]
  rcases hstep : step.run (s.afterMarking oid) with ⟨e | a, s'⟩
  · rw [hstep] at hunmarked herror
    have hend : (Resolving.marking oid step >>= fun a => Resolving.remember (next a)).run s =
        (.error e, s'.afterUnmarking oid) := by rw [run_bind, hrun, hstep]
    obtain ⟨he, asked, hspent⟩ := herror e rfl
    refine ⟨hother.symm, by rwa [hend], by rw [hend]; nofun, fun e' he' => ?_⟩
    rw [hend] at he' ⊢
    cases he'
    exact ⟨he, asked, hspent.queries, hspent.twice, hspent.once⟩
  · rw [hstep] at hunmarked hok
    have hend : (Resolving.marking oid step >>= fun a => Resolving.remember (next a)).run s =
        (Resolving.remember (next a)).run (s'.afterUnmarking oid) := by rw [run_bind, hrun, hstep]
    obtain ⟨asked, hs'⟩ := hok a rfl
    have hkept := hs'.keeping (next a)
    rw [hnext a] at hkept
    refine ⟨hother.symm, by rw [hend]; exact hunmarked, fun _ _ => ⟨asked, by rwa [hend]⟩, ?_⟩
    rw [hend]
    nofun

section Levels

/-- One level of a resolution; the types that a row refers to are resolved by `resolve`. -/
def level (source : Snapshot) (resolve : Oid → Resolving TypeDescriptor) (oid : Oid) :
    Resolving TypeDescriptor := do
  match (← get).cached? oid with
  | some d => return d
  | none =>
    if oid = 0 then remember .unknown
    else
      ask (.typeRow oid)
      match source.typeRow? oid with
      | none => throw (.unresolved oid .unknownType)
      | some row =>
        if (← get).inProgress.contains oid then throw (.unresolved oid (.cycle row.name))
        else
          let kind ← marking oid (kind source resolve row)
          remember ⟨row.oid, row.name, row.schema, row.arrayOid, kind, 0⟩

/-- A resolution has as many levels as its depth and fails below them. -/
theorem descriptor_eq (source : Snapshot) (depth : Nat) :
    descriptor source depth = Nat.iterate (level source) depth fun oid => throw (.unresolved oid .tooDeep) := by
  induction depth with
  | zero => rfl
  | succ depth ih =>
    rw [Function.iterate_succ_apply', ← ih]
    rfl

variable {source : Snapshot} {resolve resolve' : Oid → Resolving TypeDescriptor}

/-- Two ways to resolve a type that end alike while the types of a path are in progress. -/
def BoundedAt (base : TypeSession) (path : List Oid) (resolve resolve' : Oid → Resolving TypeDescriptor)
    (oid : Oid) : Prop :=
  ∀ s asked, Underway base s asked → s.inProgress = path → Bounded base s (resolve oid) (resolve' oid)

private theorem fields_bounded (hs : Underway base s asked) {attributes : List AttributeRow}
    (h : ∀ a ∈ attributes, BoundedAt base s.inProgress resolve resolve' a.typeOid) :
    Bounded base s (Resolving.fields resolve attributes) (Resolving.fields resolve' attributes) := by
  induction attributes generalizing s asked with
  | nil => exact .pure hs []
  | cons a rest ih =>
    obtain ⟨ha, hrest⟩ := List.forall_mem_cons.mp h
    refine (ha s asked hs rfl).bind fun d s' asked' hs' hprogress => ?_
    rw [← hprogress] at hrest
    exact (ih hs' hrest).bind fun fields s'' asked'' hs'' _ => .pure hs'' _

private theorem kind_bounded (hs : Underway base s asked) {row : TypeRow}
    (h : ∀ other ∈ source.references row, BoundedAt base s.inProgress resolve resolve' other) :
    Bounded base s (Resolving.kind source resolve row) (Resolving.kind source resolve' row) := by
  obtain ⟨oid, name, schema, typeClass, element, arrayOid, baseType, notNull⟩ := row
  have single {other : Oid} (hother : BoundedAt base s.inProgress resolve resolve' other)
      (build : TypeDescriptor → TypeKind) {s' : TypeSession} {asked' : List CatalogQuery}
      (hs' : Underway base s' asked') (hprogress : s'.inProgress = s.inProgress) :
      Bounded base s' (resolve other >>= fun d => Pure.pure (build d))
        (resolve' other >>= fun d => Pure.pure (build d)) :=
    (hother s' asked' hs' hprogress).bind fun d s'' asked'' hs'' _ => .pure hs'' _
  cases element with
  | some element => exact single (h element List.mem_cons_self) _ hs rfl
  | none =>
    cases typeClass with
    | base =>
      rw [Resolving.kind, Resolving.kind]
      cases BaseType.ofTypeName? name with
      | some b => exact .pure hs _
      | none => exact .throw hs.spent (by rintro o ⟨⟩)
    | composite =>
      have hasked := hs.asking (q := .attributes oid) (by rintro o ⟨⟩)
      have hfields := fields_bounded hasked fun a ha => h a.typeOid (List.mem_map_of_mem ha)
      exact .ask (hfields.bind fun fields s' asked' hs' _ => .pure hs' _)
    | domain =>
      cases baseType with
      | some other => exact single (h other List.mem_cons_self) _ hs rfl
      | none => exact .throw hs.spent (by rintro o ⟨⟩)
    | enum =>
      have hasked := hs.asking (q := .labels oid) (by rintro o ⟨⟩)
      exact .ask (.pure hasked _)
    | range =>
      refine .ask ?_
      have hasked := hs.asking (q := .subtype oid) (by rintro o ⟨⟩)
      cases hsubtype : source.subtypeOf? oid with
      | some subtype =>
        have hmem : subtype ∈
            source.references ⟨oid, name, schema, .range, none, arrayOid, baseType, notNull⟩ := by
          simp [Snapshot.references, hsubtype]
        exact single (h subtype hmem) _ hasked rfl
      | none => exact .throw hasked.spent (by rintro o ⟨⟩)
    | pseudo => exact .throw hs.spent (by rintro o ⟨⟩)
    | multirange => exact .throw hs.spent (by rintro o ⟨⟩)
    | other code => exact .throw hs.spent (by rintro o ⟨⟩)

/-- A level is bounded if the levels below it are, where the type is in progress. -/
theorem level_bounded {path : List Oid} {oid : Oid}
    (h : ∀ row, source.typeRow? oid = some row → oid ∉ path → ∀ other ∈ source.references row,
      BoundedAt base (oid :: path) resolve resolve' other) :
    BoundedAt base path (level source resolve) (level source resolve') oid := by
  intro s asked hs hpath
  refine .get ?_
  cases hcached : s.cached? oid with
  | some d => exact .pure hs d
  | none =>
    have hnew : oid ∉ s.known := by simp [mem_known, hcached]
    dsimp only
    by_cases h0 : oid = 0
    · rw [if_pos h0, if_pos h0]
      have hkept : Underway base (s.afterKeeping .unknown) asked :=
        ⟨hs.queries, fun o ho => List.mem_cons_of_mem _ (hs.known ho), hs.once,
          fun o ho => (hs.read o ho).imp_right (Or.imp_left (List.mem_cons_of_mem _))⟩
      exact .remember hkept
    · rw [if_neg h0, if_neg h0]
      refine .ask ?_
      cases hrow : source.typeRow? oid with
      | none => exact .throw (hs.reading hnew) nofun
      | some row =>
        refine .get ?_
        by_cases hmem : oid ∈ path
        · have hcontains : (s.afterAsking (.typeRow oid)).inProgress.contains oid = true := by
            simpa [afterAsking, hpath] using hmem
          rw [if_pos hcontains, if_pos hcontains]
          exact .throw (hs.reading hnew) nofun
        · have hcontains : (s.afterAsking (.typeRow oid)).inProgress.contains oid = false := by
            simpa [afterAsking, hpath] using hmem
          rw [hcontains, if_neg Bool.false_ne_true, if_neg Bool.false_ne_true]
          have hmarked := hs.marking hnew (hpath ▸ hmem)
          have hbelow := h row hrow hmem
          have hplace : ((s.afterAsking (.typeRow oid)).afterMarking oid).inProgress = oid :: path := by
            rw [← hpath]
            rfl
          rw [← hplace] at hbelow
          exact (kind_bounded hmarked hbelow).marking fun _ => Snapshot.typeRow?_oid hrow

/-- Levels that outnumber the rows of the types not in progress are enough, whatever stands below them. -/
theorem levels_bounded {path : List Oid} {depth depth' : Nat} (hdepth : source.remaining path < depth)
    (hdepth' : source.remaining path < depth') (oid : Oid) :
    BoundedAt base path (Nat.iterate (level source) depth resolve)
      (Nat.iterate (level source) depth' resolve') oid := by
  induction depth generalizing path depth' oid with
  | zero => omega
  | succ depth ih =>
    obtain ⟨depth', rfl⟩ : ∃ n, depth' = n + 1 := ⟨depth' - 1, by omega⟩
    rw [Function.iterate_succ_apply', Function.iterate_succ_apply']
    refine level_bounded fun row hrow hmem other _ => ?_
    have hless := source.remaining_lt hrow hmem
    exact ih (by omega) (by omega) other

end Levels

end Resolving

namespace TypeSession

/-- From every session that calls have led to, failed ones among them and the catalog changed between
them, a type is resolved in no more levels than there are type rows and one: nothing is called below
these, whatever it were. In the course of it no row of a type is read more than twice, and no row of
a type that is kept in the end more than once. -/
theorem resolve_effort (start : Nat) (earlier : List Call) (source : Snapshot) (oid : Oid) (nullable : Bool) :
    let s := (fresh start).resolveEach earlier
    let s' := (s.resolve source oid nullable).2
    (∀ below more, (Nat.iterate (Resolving.level source) (source.typeCount + 1 + more) below oid).run s =
        (Resolving.descriptor source (Resolving.depthFor source) oid).run s) ∧
      (∀ o, (s.resolve source oid nullable).1 ≠ .error (.unresolved o .tooDeep)) ∧
      ∃ asked, s'.queries = s.queries ++ asked ∧
        ∀ o, asked.count (.typeRow o) ≤ 2 ∧ ((s'.cached? o).isSome → asked.count (.typeRow o) ≤ 1) := by
  intro s s'
  have hprogress : s.inProgress = [] := (resolveEach_keeps (coherent_fresh start) earlier).2.2
  have hrows : source.remaining [] ≤ source.typeCount := List.countP_le_length
  have hall (below : Oid → Resolving TypeDescriptor) (more : Nat) :
      Resolving.Bounded s s (Nat.iterate (Resolving.level source) (source.typeCount + 1 + more) below oid)
        (Resolving.descriptor source (Resolving.depthFor source) oid) := by
    rw [Resolving.descriptor_eq, Resolving.depthFor]
    exact Resolving.levels_bounded (by omega) (by omega) oid s [] (underway_refl s) hprogress
  have hcall : Resolving.Bounded s s (Resolving.type source oid nullable)
      (Resolving.type source oid nullable) := by
    have hdescriptor := hall (fun oid => throw (.unresolved oid .tooDeep)) 0
    rw [Nat.add_zero, ← Resolving.descriptor_eq] at hdescriptor
    exact hdescriptor.bind fun d s'' asked hs'' _ => .pure hs'' _
  refine ⟨fun below more => (hall below more).same, fun o ho => ?_, ?_⟩
  · exact (hcall.error _ ho).1 o rfl
  · have hspent : ∃ asked, Spent s s' asked := by
      cases houtcome : ((Resolving.type source oid nullable).run s).1 with
      | error e => exact (hcall.error e houtcome).2
      | ok t =>
        obtain ⟨asked, hunderway⟩ := hcall.ok t houtcome
        exact ⟨asked, hunderway.spent⟩
    obtain ⟨asked, hspent⟩ := hspent
    refine ⟨asked, hspent.queries, fun o => ⟨hspent.twice o, fun ho => ?_⟩⟩
    exact hspent.once o (mem_known.mpr ho)

/-- Two composites that share a type and refer to each other, in a session that failed before: the shared
type is kept and its row read once, the row of the first composite twice. -/
theorem resolve_effort_mutual :
    let source : Snapshot := ⟨[.ofClass 10 "ping" "app" .composite, .ofClass 11 "pong" "app" .composite,
        .ofClass 12 "mood" "app" .enum],
      [(10, [⟨"mood", 12, true⟩, ⟨"other", 11, false⟩]), (11, [⟨"mood", 12, true⟩, ⟨"other", 10, false⟩])],
      [], []⟩
    let s := (fresh 1).resolveEach [⟨.empty, 10, true⟩]
    let s' := (s.resolve source 10 true).2
    (s.resolve source 10 true).1 = .error (.unresolved 10 (.cycle "ping")) ∧ (s'.cached? 12).isSome ∧
      ∃ asked, s'.queries = s.queries ++ asked ∧ asked.count (.typeRow 10) = 2 ∧
        asked.count (.typeRow 12) ≤ 1 := by
  intro source s s'
  have hkept : (s'.cached? 12).isSome = true := by decide
  obtain ⟨-, -, asked, hasked, hreads⟩ := resolve_effort 1 [⟨.empty, 10, true⟩] source 10 true
  refine ⟨rfl, hkept, asked, hasked, ?_, (hreads 12).2 hkept⟩
  have hqueries : s'.queries = s.queries ++ [.typeRow 10, .attributes 10, .typeRow 12, .labels 12,
      .typeRow 11, .attributes 11, .typeRow 10] := by decide
  rw [List.append_cancel_left (hasked.symm.trans hqueries)]
  rfl

end TypeSession
end TypedSql

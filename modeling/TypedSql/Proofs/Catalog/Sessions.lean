import TypedSql.Catalog.Session
import TypedSql.Proofs.Catalog.Unfolding

/-! Sessions resolve every type to its unfolding, whatever they resolved or failed to resolve before. -/
namespace TypedSql

mutual

/-- A descriptor without the stamps that tell its instances apart. -/
def TypeDescriptor.unstamped : TypeDescriptor → TypeDescriptor
  | ⟨oid, name, schema, arrayOid, kind, _⟩ => ⟨oid, name, schema, arrayOid, kind.unstamped, 0⟩

def TypeKind.unstamped : TypeKind → TypeKind
  | .unknown => .unknown
  | .base b => .base b
  | .domain base => .domain base.unstamped
  | .composite fields => .composite (Field.allUnstamped fields)
  | .enum labels => .enum labels
  | .array element => .array element.unstamped
  | .range subtype => .range subtype.unstamped

def TypeRef.unstamped : TypeRef → TypeRef
  | ⟨descriptor, nullable⟩ => ⟨descriptor.unstamped, nullable⟩

def Field.allUnstamped : List Field → List Field
  | [] => []
  | ⟨name, type⟩ :: rest => ⟨name, type.unstamped⟩ :: Field.allUnstamped rest

end

/-- What a session keeps is, but for stamps, the unfolding of its type. -/
def TypeSession.Sound (source : Snapshot) (s : TypeSession) : Prop :=
  ∀ d ∈ s.cache, source.unfolding [] d.oid = .ok d.unstamped

/-- What a sound session keeps of a type is its unfolding below any types that lead to it. -/
theorem TypeSession.Sound.unfolding_cached {source : Snapshot} {s : TypeSession} (hs : s.Sound source)
    {oid : Oid} {d : TypeDescriptor} (hcached : s.cached? oid = some d) {path : List Oid}
    (hpath : ∀ p ∈ path, Relation.TransGen source.Refers p oid) :
    source.unfolding path oid = .ok d.unstamped := by
  have hoid : d.oid = oid := by simpa using List.find?_some hcached
  have hd := hs d (List.mem_of_find?_eq_some hcached)
  rw [hoid] at hd
  -- a type that was resolved leads to none that leads back to it
  refine Snapshot.unfolding_ok_of hd fun p hp _ hreach => ?_
  exact Snapshot.unfolding_acyclic hd .refl (.trans_right hreach (hpath p hp))

namespace Resolving

variable {α β γ δ : Type} {source : Snapshot} {path : List Oid}

/-- A step that has an outcome, seen without stamps, in every sound session with the types of a path in
progress; the session stays sound and has the same types in progress behind it. -/
def Gives (source : Snapshot) (path : List Oid) (step : Resolving α) (see : α → β)
    (outcome : Except Error β) : Prop :=
  ∀ s : TypeSession, s.Sound source → s.inProgress = path →
    see <$> (step.run s).1 = outcome ∧ (step.run s).2.Sound source ∧ (step.run s).2.inProgress = path

theorem Gives.pure (a : α) (see : α → β) : Gives source path (pure a) see (.ok (see a)) :=
  fun _ hs hpath => ⟨rfl, hs, hpath⟩

theorem Gives.throw (e : Error) (see : α → β) : Gives source path (throw e) see (.error e) :=
  fun _ hs hpath => ⟨rfl, hs, hpath⟩

theorem Gives.bind {step : Resolving α} {see : α → β} {outcome : Except Error β}
    {next : α → Resolving γ} {see' : γ → δ} {result : β → Except Error δ}
    (h : Gives source path step see outcome)
    (hnext : ∀ a, outcome = .ok (see a) → Gives source path (next a) see' (result (see a))) :
    Gives source path (step >>= next) see' (outcome >>= result) := by
  intro s hs hpath
  obtain ⟨houtcome, hs', hpath'⟩ := h s hs hpath
  rw [run_bind]
  rcases hstep : step.run s with ⟨e | a, s'⟩
  · rw [hstep] at houtcome hs' hpath'
    exact ⟨by rw [← houtcome]; rfl, hs', hpath'⟩
  · rw [hstep] at houtcome hs' hpath'
    have hnext' := hnext a houtcome.symm s' hs' hpath'
    rw [← houtcome]
    exact hnext'

theorem Gives.map {step : Resolving α} {see : α → β} {outcome : Except Error β} {f : α → γ}
    {see' : γ → δ} {f' : β → δ} (h : Gives source path step see outcome)
    (hf : ∀ a, see' (f a) = f' (see a)) :
    Gives source path (step >>= fun a => Pure.pure (f a)) see' (f' <$> outcome) := by
  rw [← bind_ok]
  refine h.bind fun a _ => ?_
  rw [← hf]
  exact .pure (f a) see'

/-- A step may be chosen after a look at the session. -/
theorem Gives.get {next : TypeSession → Resolving α} {see : α → β} {outcome : Except Error β}
    (h : ∀ s : TypeSession, s.Sound source → s.inProgress = path →
      Gives source path (next s) see outcome) :
    Gives source path (MonadState.get >>= next) see outcome :=
  fun s hs hpath => h s hs hpath s hs hpath

theorem Gives.ask (q : CatalogQuery) {step : Resolving α} {see : α → β} {outcome : Except Error β}
    (h : Gives source path step see outcome) :
    Gives source path (Resolving.ask q >>= fun _ => step) see outcome :=
  fun s hs hpath => h { s with queries := s.queries ++ [q] } hs hpath

theorem Gives.marking {oid : Oid} {step : Resolving α} {see : α → β} {outcome : Except Error β}
    (h : Gives source (oid :: path) step see outcome) :
    Gives source path (Resolving.marking oid step) see outcome := by
  intro s hs hpath
  obtain ⟨houtcome, hs', hpath'⟩ := h { s with inProgress := oid :: s.inProgress } hs (by rw [hpath])
  refine ⟨houtcome, hs', ?_⟩
  exact (congrArg (List.erase · oid) hpath').trans (List.erase_cons_head oid path)

theorem Gives.remember {d : TypeDescriptor} (h : source.unfolding [] d.oid = .ok d.unstamped) :
    Gives source path (Resolving.remember d) TypeDescriptor.unstamped (.ok d.unstamped) := by
  intro s hs hpath
  refine ⟨by cases d; rfl, ?_, hpath⟩
  intro d' hd'
  rcases List.mem_cons.mp hd' with rfl | hd'
  · cases d; exact h
  · exact hs d' hd'

section Kinds

variable {resolve : Oid → Resolving TypeDescriptor} {unfold : Oid → Except Error TypeDescriptor}

private theorem fields_gives {attributes : List AttributeRow}
    (h : ∀ a ∈ attributes,
      Gives source path (resolve a.typeOid) TypeDescriptor.unstamped (unfold a.typeOid)) :
    Gives source path (Resolving.fields resolve attributes) Field.allUnstamped
      (attributes.mapM fun a => a.field <$> unfold a.typeOid) := by
  induction attributes with
  | nil => exact .pure [] Field.allUnstamped
  | cons a rest ih =>
    have hrest := ih fun a' ha => h a' (List.mem_cons_of_mem a ha)
    have hcons : ((a :: rest).mapM fun a => a.field <$> unfold a.typeOid) =
        unfold a.typeOid >>= fun d =>
          (a.field d :: ·) <$> rest.mapM fun a => a.field <$> unfold a.typeOid := by
      rw [List.mapM_cons]
      cases unfold a.typeOid with
      | error e => rfl
      | ok d => exact bind_ok _ _
    rw [hcons]
    exact (h a List.mem_cons_self).bind fun d _ => hrest.map fun _ => rfl

private theorem kind_gives {row : TypeRow}
    (h : ∀ other ∈ source.references row,
      Gives source path (resolve other) TypeDescriptor.unstamped (unfold other)) :
    Gives source path (Resolving.kind source resolve row) TypeKind.unstamped
      (source.unfoldKind unfold row) := by
  obtain ⟨oid, name, schema, typeClass, element, arrayOid, baseType, notNull⟩ := row
  cases element with
  | some element => exact (h element List.mem_cons_self).map fun _ => rfl
  | none =>
    cases typeClass with
    | base =>
      rw [Resolving.kind, Snapshot.unfoldKind]
      cases BaseType.ofTypeName? name with
      | some b => exact .pure (.base b) TypeKind.unstamped
      | none => exact .throw _ _
    | composite =>
      refine .ask _ ((fields_gives fun a ha => h a.typeOid ?_).map fun _ => rfl)
      exact List.mem_map_of_mem ha
    | domain =>
      cases baseType with
      | some base => exact (h base List.mem_cons_self).map fun _ => rfl
      | none => exact .throw _ _
    | enum => exact .ask _ (.pure (.enum _) TypeKind.unstamped)
    | range =>
      refine .ask _ ?_
      rw [Snapshot.unfoldKind]
      cases hsubtype : source.subtypeOf? oid with
      | some subtype =>
        have hmem : subtype ∈
            source.references ⟨oid, name, schema, .range, none, arrayOid, baseType, notNull⟩ := by
          simp [Snapshot.references, hsubtype]
        exact (h subtype hmem).map fun _ => rfl
      | none => exact .throw _ _
    | pseudo => exact .throw _ _
    | multirange => exact .throw _ _
    | other code => exact .throw _ _

end Kinds

/-- In a sound session a type is resolved to its unfolding below the types in progress, if these lead to
it and the depth exceeds the number of rows that are left. -/
theorem descriptor_gives {depth : Nat} {oid : Oid}
    (hpath : ∀ p ∈ path, Relation.TransGen source.Refers p oid) (hdepth : source.remaining path < depth) :
    Gives source path (Resolving.descriptor source depth oid) TypeDescriptor.unstamped
      (source.unfolding path oid) := by
  induction depth generalizing path oid with
  | zero => omega
  | succ depth ih =>
    refine .get fun s hs _ => ?_
    cases hcached : s.cached? oid with
    | some d =>
      rw [hs.unfolding_cached hcached hpath]
      exact .pure d TypeDescriptor.unstamped
    | none =>
      dsimp only
      by_cases h0 : oid = 0
      · subst h0
        rw [if_pos rfl, Snapshot.unfolding_zero]
        exact .remember (by rw [TypeDescriptor.unknown, Snapshot.unfolding_zero]; rfl)
      · rw [if_neg h0]
        refine .ask _ ?_
        cases hrow : source.typeRow? oid with
        | none =>
          rw [Snapshot.unfolding_missing h0 hrow]
          exact .throw _ _
        | some row =>
          refine .get fun s' _ hprogress' => ?_
          by_cases hmem : oid ∈ path
          · rw [if_pos (by simpa [hprogress'] using hmem), Snapshot.unfolding_cycle h0 hrow hmem]
            exact .throw _ _
          · rw [if_neg (by simpa [hprogress'] using hmem)]
            have hrow' := Snapshot.unfolding_row h0 hrow hmem
            have hleft : source.remaining (oid :: path) < depth := by
              have := source.remaining_lt hrow hmem
              omega
            have hkind : Gives source (oid :: path)
                (Resolving.kind source (Resolving.descriptor source depth) row) _ _ :=
              kind_gives fun other hother =>
                ih (Snapshot.leads_below hpath ⟨h0, row, hrow, hother⟩) hleft
            rw [hrow', ← bind_ok]
            refine hkind.marking.bind fun kind houtcome => ?_
            rw [houtcome, ok_map] at hrow'
            refine .remember (d := row.descriptor kind) ?_
            change source.unfolding [] row.oid = .ok (row.descriptor kind.unstamped)
            rw [Snapshot.typeRow?_oid hrow]
            exact Snapshot.unfolding_ok_of hrow' nofun

end Resolving

namespace TypeSession

/-- The session behind some calls, each with an identifier and the nullability of the use. -/
def resolveAll (s : TypeSession) (source : Snapshot) (calls : List (Oid × Bool)) : TypeSession :=
  calls.foldl (fun s (oid, nullable) => (s.resolve source oid nullable).2) s

variable {source : Snapshot} {s : TypeSession}

/-- A sound session with nothing in progress resolves a type to its unfolding, and stays one. -/
theorem resolve_gives (oid : Oid) (nullable : Bool) :
    Resolving.Gives source [] (Resolving.type source oid nullable) TypeRef.unstamped
      ((fun d => ⟨d, nullable⟩) <$> source.unfolding [] oid) := by
  have hdepth : source.remaining [] < Resolving.depthFor source :=
    Nat.lt_succ_of_le List.countP_le_length
  exact (Resolving.descriptor_gives (List.forall_mem_nil _) hdepth).map fun _ => rfl

theorem resolveAll_sound (hs : s.Sound source) (hprogress : s.inProgress = []) (calls : List (Oid × Bool)) :
    (s.resolveAll source calls).Sound source ∧ (s.resolveAll source calls).inProgress = [] := by
  induction calls generalizing s with
  | nil => exact ⟨hs, hprogress⟩
  | cons call rest ih =>
    obtain ⟨-, hs', hprogress'⟩ := resolve_gives call.1 call.2 s hs hprogress
    exact ih hs' hprogress'

/-- Whatever a session resolved or failed to resolve before, a type has the outcome that it has in a
fresh session, stamps aside, and it is the unfolding of the type. It succeeds if every type that the type
leads to can be resolved and none leads to itself, and where it reports a cycle there is one. -/
theorem resolve_unfolds (source : Snapshot) (start start' : Nat) (earlier : List (Oid × Bool)) (oid : Oid)
    (nullable : Bool) :
    let outcome := TypeRef.unstamped <$>
      (((fresh start).resolveAll source earlier).resolve source oid nullable).1
    outcome = TypeRef.unstamped <$> ((fresh start').resolve source oid nullable).1 ∧
      outcome = (fun d => ⟨d, nullable⟩) <$> source.unfolding [] oid ∧
      ((∃ t, outcome = .ok t) ↔ ∀ o, Relation.ReflTransGen source.Refers oid o →
        source.Resolvable o ∧ ¬ Relation.TransGen source.Refers o o) ∧
      ∀ o name, outcome = .error (.unresolved o (.cycle name)) →
        Relation.ReflTransGen source.Refers oid o ∧ Relation.TransGen source.Refers o o := by
  intro outcome
  have hfresh (n : Nat) : (fresh n).Sound source := nofun
  obtain ⟨hs, hprogress⟩ := resolveAll_sound (hfresh start) rfl earlier
  have hunfolds : outcome = (fun d => ⟨d, nullable⟩) <$> source.unfolding [] oid :=
    (resolve_gives oid nullable _ hs hprogress).1
  refine ⟨?_, hunfolds, ?_, ?_⟩
  · exact hunfolds.trans (resolve_gives oid nullable _ (hfresh start') rfl).1.symm
  · rw [hunfolds, ← Snapshot.unfolding_succeeds]
    cases source.unfolding [] oid <;> simp
  · intro o name herror
    rw [hunfolds] at herror
    exact Snapshot.unfolding_reports (List.forall_mem_nil _) (map_eq_error.mp herror)

end TypeSession
end TypedSql

import TypedSql.Error
import Mathlib.Data.List.Forall2

/-! Computations that may fail, opened one step at a time. -/
namespace TypedSql

variable {ε α β : Type}

@[simp] theorem ok_bind (a : α) (f : α → Except ε β) : (Except.ok a >>= f) = f a := rfl

@[simp] theorem error_bind (e : ε) (f : α → Except ε β) :
    ((Except.error e : Except ε α) >>= f) = .error e := rfl

@[simp] theorem ok_map (a : α) (f : α → β) : f <$> (Except.ok a : Except ε α) = .ok (f a) := rfl

@[simp] theorem error_map (e : ε) (f : α → β) : f <$> (Except.error e : Except ε α) = .error e := rfl

@[simp] theorem bind_ok (x : Except ε α) (f : α → β) : (x >>= fun a => .ok (f a)) = f <$> x := by
  cases x <;> rfl

theorem bind_eq_ok {x : Except ε α} {f : α → Except ε β} {b : β} :
    (x >>= f) = .ok b ↔ ∃ a, x = .ok a ∧ f a = .ok b := by
  cases x <;> simp

theorem map_eq_ok {x : Except ε α} {f : α → β} {b : β} :
    f <$> x = .ok b ↔ ∃ a, x = .ok a ∧ f a = b := by
  cases x <;> simp

theorem map_eq_error {x : Except ε α} {f : α → β} {e : ε} : f <$> x = .error e ↔ x = .error e := by
  cases x <;> simp

theorem map_succeeds {x : Except ε α} {f : α → β} : (∃ b, f <$> x = .ok b) ↔ ∃ a, x = .ok a := by
  cases x <;> simp

theorem bind_succeeds {x : Except ε α} {f : α → Except ε β} :
    (∃ b, (x >>= f) = .ok b) ↔ ∃ a, x = .ok a ∧ ∃ b, f a = .ok b := by
  cases x <;> simp

theorem pure_succeeds (a : α) : ∃ b, (pure a : Except ε α) = .ok b := ⟨a, rfl⟩

/-- A step that fails ends a run; its state stays. -/
theorem run_bind {σ : Type} (a : ExceptT ε (StateM σ) α) (b : α → ExceptT ε (StateM σ) β) (s : σ) :
    (a >>= b).run s = match a.run s with
      | (.ok x, s') => (b x).run s'
      | (.error e, s') => (.error e, s') := by
  change (ExceptT.bindCont b (a s).1) (a s).2 = _
  unfold ExceptT.bindCont ExceptT.run
  rcases a s with ⟨x | x, s'⟩ <;> rfl

/-- Where two computations both succeed, their outcomes look the same. -/
def Agree {ε α β : Type} (view : α → β) (r r' : Except ε α) : Prop :=
  ∀ a a', r = .ok a → r' = .ok a' → view a = view a'

namespace Agree

variable {γ δ : Type} {view : α → γ} {view' : β → δ} {r r' r₀ : Except ε α}

theorem refl (r : Except ε α) : Agree view r r := by
  rintro a _ rfl ⟨⟩
  rfl

theorem ok {a a' : α} (h : view a = view a') : Agree view (.ok a : Except ε α) (.ok a') := by
  rintro _ _ ⟨⟩ ⟨⟩
  exact h

theorem bind {next next' : α → Except ε β} (h : Agree view r r')
    (hnext : ∀ a a', view a = view a' → Agree view' (next a) (next' a')) :
    Agree view' (r >>= next) (r' >>= next') := by
  intro b b' hb hb'
  obtain ⟨a, ha, hb⟩ := bind_eq_ok.mp hb
  obtain ⟨a', ha', hb'⟩ := bind_eq_ok.mp hb'
  exact hnext a a' (h a a' ha ha') b b' hb hb'

theorem map {f f' : α → β} (h : Agree view r r')
    (hf : ∀ a a', view a = view a' → view' (f a) = view' (f' a')) :
    Agree view' (f <$> r) (f' <$> r') := by
  rw [← bind_ok, ← bind_ok]
  exact h.bind fun a a' ha => ok (hf a a' ha)

/-- Checks have nothing to show. -/
theorem checked {c c' : Except ε Unit} (h : Agree view r r') :
    Agree view (c >>= fun _ => r) (c' >>= fun _ => r') :=
  have hunit : Agree (id : Unit → Unit) c c' := fun _ _ _ _ => rfl
  hunit.bind fun _ _ _ => h

/-- Two computations agree if both do with one that succeeds. -/
theorem through (h : Agree view r r₀) (h' : Agree view r' r₀) (hsucceeds : ∃ a, r₀ = .ok a) :
    Agree view r r' := by
  obtain ⟨a₀, ha₀⟩ := hsucceeds
  exact fun a a' ha ha' => (h a a₀ ha ha₀).trans (h' a' a₀ ha' ha₀).symm

end Agree

section Lists

variable {f g : α → Except ε β} {l : List α}

/-- A list of computations succeeds if each of them does. -/
theorem mapM_succeeds : (∃ bs, l.mapM f = .ok bs) ↔ ∀ a ∈ l, ∃ b, f a = .ok b := by
  induction l with
  | nil => simp [pure, Except.pure]
  | cons a l ih =>
    rw [List.mapM_cons, List.forall_mem_cons, ← ih]
    constructor
    · rintro ⟨bs, h⟩
      obtain ⟨b, hb, h⟩ := bind_eq_ok.mp h
      obtain ⟨rest, hrest, -⟩ := bind_eq_ok.mp h
      exact ⟨⟨b, hb⟩, rest, hrest⟩
    · rintro ⟨⟨b, hb⟩, rest, hrest⟩
      exact ⟨b :: rest, by rw [hb, hrest]; rfl⟩

theorem mapM_ok_of {bs : List β} (h : l.mapM f = .ok bs)
    (hg : ∀ a ∈ l, ∀ b, f a = .ok b → g a = .ok b) : l.mapM g = .ok bs := by
  induction l generalizing bs with
  | nil => exact h
  | cons a l ih =>
    rw [List.mapM_cons] at h
    obtain ⟨b, hb, h⟩ := bind_eq_ok.mp h
    obtain ⟨rest, hrest, h⟩ := bind_eq_ok.mp h
    rw [List.mapM_cons, hg a List.mem_cons_self b hb,
      ih hrest fun a' ha' => hg a' (List.mem_cons_of_mem a ha')]
    exact h

/-- A list of computations gives what they give one by one. -/
theorem mapM_eq_ok {bs : List β} : l.mapM f = .ok bs ↔ List.Forall₂ (fun a b => f a = .ok b) l bs := by
  induction l generalizing bs with
  | nil => simp [pure, Except.pure, eq_comm]
  | cons a l ih =>
    rw [List.mapM_cons, List.forall₂_cons_left_iff]
    constructor
    · intro h
      obtain ⟨b, hb, h⟩ := bind_eq_ok.mp h
      obtain ⟨rest, hrest, h⟩ := bind_eq_ok.mp h
      cases h
      exact ⟨b, rest, hb, ih.mp hrest, rfl⟩
    · rintro ⟨b, rest, hb, hrest, rfl⟩
      rw [hb, ih.mpr hrest]
      rfl

theorem forall₂_mem_left {R : α → β → Prop} {bs : List β} (h : List.Forall₂ R l bs) {a : α} (ha : a ∈ l) :
    ∃ b, (a, b) ∈ l.zip bs ∧ R a b := by
  have hfst : (l.zip bs).map Prod.fst = l := List.map_fst_zip (Nat.le_of_eq h.length_eq)
  rw [← hfst] at ha
  obtain ⟨p, hp, rfl⟩ := List.mem_map.mp ha
  exact ⟨p.2, hp, List.forall₂_zip h hp⟩

theorem forall₂_mem_right {R : α → β → Prop} {bs : List β} (h : List.Forall₂ R l bs) {b : β} (hb : b ∈ bs) :
    ∃ a, (a, b) ∈ l.zip bs ∧ R a b := by
  have hsnd : (l.zip bs).map Prod.snd = bs := List.map_snd_zip (Nat.le_of_eq h.length_eq.symm)
  rw [← hsnd] at hb
  obtain ⟨p, hp, rfl⟩ := List.mem_map.mp hb
  exact ⟨p.1, hp, List.forall₂_zip h hp⟩

/-- Lists are related by way of something in between if lists in between are. -/
theorem forall₂_through {γ : Type} {R : α → γ → Prop} {S : γ → β → Prop} {bs : List β} :
    List.Forall₂ (fun a b => ∃ c, R a c ∧ S c b) l bs ↔ ∃ cs, List.Forall₂ R l cs ∧ List.Forall₂ S cs bs := by
  constructor
  · intro h
    induction h with
    | nil => exact ⟨[], .nil, .nil⟩
    | cons hhead _ ih =>
      obtain ⟨c, hr, hs⟩ := hhead
      obtain ⟨cs, hrs, hss⟩ := ih
      exact ⟨c :: cs, .cons hr hrs, .cons hs hss⟩
  · rintro ⟨cs, hr, hs⟩
    induction hr generalizing bs with
    | nil =>
      cases hs
      exact .nil
    | cons hhead _ ih =>
      cases hs with
      | cons hhead' hs => exact .cons ⟨_, hhead, hhead'⟩ (ih hs)

/-- Partners that are images have preimages, each related to its own. -/
theorem forall₂_preimages {γ : Type} {R : α → γ → Prop} {image : γ → β} {bs : List β}
    (h : List.Forall₂ (fun a b => ∃ c, R a c ∧ image c = b) l bs) :
    ∃ cs, List.Forall₂ R l cs ∧ cs.map image = bs := by
  obtain ⟨cs, hcs, himages⟩ := forall₂_through.mp h
  exact ⟨cs, hcs, List.forall₂_eq_eq_eq ▸ List.forall₂_map_left_iff.mpr himages⟩

theorem mapM_mem {bs : List β} (h : l.mapM f = .ok bs) {b : β} (hb : b ∈ bs) : ∃ a ∈ l, f a = .ok b := by
  obtain ⟨a, hmem, ha⟩ := forall₂_mem_right (mapM_eq_ok.mp h) hb
  exact ⟨a, (List.of_mem_zip hmem).1, ha⟩

/-- What is undone for each member is undone for the list. -/
theorem mapM_undoes {undo : β → Except ε α} (h : ∀ a ∈ l, ∃ b, f a = .ok b ∧ undo b = .ok a) :
    ∃ bs, l.mapM f = .ok bs ∧ bs.mapM undo = .ok l := by
  simp only [mapM_eq_ok]
  induction l with
  | nil => exact ⟨[], .nil, .nil⟩
  | cons a l ih =>
    obtain ⟨⟨b, hb, hundo⟩, hl⟩ := List.forall_mem_cons.mp h
    obtain ⟨bs, hbs, hundoes⟩ := ih hl
    exact ⟨b :: bs, .cons hb hbs, .cons hundo hundoes⟩

/-- A list of computations fails as one of them does. -/
theorem mapM_error {e : ε} (h : l.mapM f = .error e) : ∃ a ∈ l, f a = .error e := by
  induction l with
  | nil => cases h
  | cons a l ih =>
    rw [List.mapM_cons] at h
    cases ha : f a with
    | error e' => exact ⟨a, List.mem_cons_self, by simpa [ha] using h⟩
    | ok b =>
      cases hrest : l.mapM f with
      | error e' =>
        obtain ⟨a', ha', he⟩ := ih (by simpa [ha, hrest] using h)
        exact ⟨a', List.mem_cons_of_mem a ha', he⟩
      | ok rest => simp [ha, hrest] at h

theorem Agree.mapM {γ : Type} {view : β → γ} {g : α → Except ε β} {l' : List α}
    (h : List.Forall₂ (fun a a' => Agree view (f a) (g a')) l l') :
    Agree (List.map view) (l.mapM f) (l'.mapM g) := by
  induction h with
  | nil => exact .ok rfl
  | cons hhead hrest ih =>
    rw [List.mapM_cons, List.mapM_cons]
    refine hhead.bind fun b b' hb => ih.bind fun bs bs' hbs => .ok ?_
    rw [List.map_cons, List.map_cons, hb, hbs]

end Lists

end TypedSql

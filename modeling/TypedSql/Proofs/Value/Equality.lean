import TypedSql.Proofs.Value.Induction

/-! The comparison of values is symmetric and transitive. It need not be reflexive: a value with a NaN in
it equals nothing, itself included. -/
namespace TypedSql

/-- How a value takes part in a comparison: what it equals is equal to it in turn, and so it is with what
that equals. -/
structure Fair {α : Type} (eq : α → α → Bool) (a : α) : Prop where
  symm : ∀ {b}, eq a b = true → eq b a = true
  trans : ∀ {b c}, eq a b = true → eq b c = true → eq a c = true

namespace Fair

variable {α β : Type} {eq : α → α → Bool}

theorem symm_false {a b : α} (h : Fair eq b) (hab : eq a b = false) : eq b a = false := by
  cases hba : eq b a with
  | false => rfl
  | true => rw [h.symm hba] at hab; cases hab

theorem of_decEq [DecidableEq α] (a : α) : Fair (fun b c => decide (b = c)) a := by
  refine ⟨fun h => ?_, fun h h' => ?_⟩
  · simpa [eq_comm] using h
  · simp_all

/-- A value that equals nothing but itself. -/
theorem point {a : α} (h : ∀ b, eq a b = true ↔ b = a) : Fair eq a := by
  refine ⟨fun {b} hab => ?_, fun {b c} hab hbc => ?_⟩
  · exact (h b).mp hab ▸ hab
  · exact (h b).mp hab ▸ hbc

/-- Values of one form that equal only values of this form, compared as what they hold. -/
theorem image {eq' : β → β → Bool} {f : β → α} {b : β}
    (hf : ∀ b a, eq (f b) a = true ↔ ∃ c, a = f c ∧ eq' b c = true) (h : Fair eq' b) :
    Fair eq (f b) := by
  refine ⟨fun hab => ?_, fun hab hbc => ?_⟩
  · obtain ⟨c, rfl, hbc⟩ := (hf b _).mp hab
    exact (hf c _).mpr ⟨b, rfl, h.symm hbc⟩
  · obtain ⟨c, rfl, hbc'⟩ := (hf b _).mp hab
    obtain ⟨d, rfl, hcd⟩ := (hf c _).mp hbc
    exact (hf b _).mpr ⟨d, rfl, h.trans hbc' hcd⟩

theorem comap {eq : β → β → Bool} (f : α → β) {a : α} (h : Fair eq (f a)) :
    Fair (fun b c => eq (f b) (f c)) a := ⟨h.symm, h.trans⟩

/-- Pairs compared part by part. -/
theorem pair {eq' : β → β → Bool} {a : α} {b : β} (h : Fair eq a) (h' : Fair eq' b) :
    Fair (fun p q => eq p.1 q.1 && eq' p.2 q.2) (a, b) := by
  refine ⟨fun hpq => ?_, fun hpq hqr => ?_⟩
  · obtain ⟨hfst, hsnd⟩ := (Bool.and_eq_true _ _).mp hpq
    exact (Bool.and_eq_true _ _).mpr ⟨h.symm hfst, h'.symm hsnd⟩
  · obtain ⟨hfst, hsnd⟩ := (Bool.and_eq_true _ _).mp hpq
    obtain ⟨hfst', hsnd'⟩ := (Bool.and_eq_true _ _).mp hqr
    exact (Bool.and_eq_true _ _).mpr ⟨h.trans hfst hfst', h'.trans hsnd hsnd'⟩

/-- Lists compared member by member. -/
theorem list {as : List α} (h : ∀ a ∈ as, Fair eq a) : Fair (fun bs cs => bs.isEqv cs eq) as := by
  induction as with
  | nil =>
    refine ⟨fun {bs} hab => ?_, fun {bs cs} hab hbc => ?_⟩
    · cases bs with
      | nil => rfl
      | cons b bs => cases hab
    · cases bs with
      | nil => exact hbc
      | cons b bs => cases hab
  | cons a as ih =>
    obtain ⟨ha, has⟩ := List.forall_mem_cons.mp h
    refine ⟨fun {bs} hab => ?_, fun {bs cs} hab hbc => ?_⟩
    · cases bs with
      | nil => cases hab
      | cons b bs =>
        simp only [List.isEqv, Bool.and_eq_true] at hab ⊢
        exact ⟨ha.symm hab.1, (ih has).symm hab.2⟩
    · cases bs with
      | nil => cases hab
      | cons b bs =>
        cases cs with
        | nil => cases hbc
        | cons c cs =>
          simp only [List.isEqv, Bool.and_eq_true] at hab hbc ⊢
          exact ⟨ha.trans hab.1 hbc.1, (ih has).trans hab.2 hbc.2⟩

end Fair

namespace Floating

/-- Whether a pattern stands for a zero, of either sign. -/
def Format.isZero (f : Format) (bits : Nat) : Bool :=
  match f.magnitude bits with
  | .finite 0 _ => true
  | _ => false

theorem sameNumber_iff {f : Format} {a b : Nat} : sameNumber f a b = true ↔
    f.magnitude a ≠ .nan ∧ f.magnitude b ≠ .nan ∧
      (a = b ∨ f.isZero a = true ∧ f.isZero b = true) := by
  unfold sameNumber Format.isZero
  rcases f.magnitude a with ⟨_ | m, p⟩ | _ | _ <;> rcases f.magnitude b with ⟨_ | n, q⟩ | _ | _ <;> simp

theorem sameNumber_fair (f : Format) (a : Nat) : Fair (sameNumber f) a := by
  refine ⟨fun hab => ?_, fun hab hbc => ?_⟩
  · obtain ⟨ha, hb, hsame⟩ := sameNumber_iff.mp hab
    exact sameNumber_iff.mpr ⟨hb, ha, hsame.imp Eq.symm And.symm⟩
  · obtain ⟨ha, -, hab⟩ := sameNumber_iff.mp hab
    obtain ⟨-, hc, hbc⟩ := sameNumber_iff.mp hbc
    refine sameNumber_iff.mpr ⟨ha, hc, ?_⟩
    rcases hab with rfl | ⟨hza, hzb⟩
    · exact hbc
    · rcases hbc with rfl | ⟨-, hzc⟩
      · exact .inr ⟨hza, hzb⟩
      · exact .inr ⟨hza, hzc⟩

theorem Single.fair (x : Single) : Fair Single.equals x :=
  .comap (fun y : Single => y.bits.toNat) (sameNumber_fair .single _)

theorem Double.fair (x : Double) : Fair Double.equals x :=
  .comap (fun y : Double => y.bits.toNat) (sameNumber_fair .double _)

end Floating

theorem JsonNumber.fair (n : JsonNumber) : Fair JsonNumber.equals n := by
  cases n with
  | integer n => exact .image (fun m a => by cases a <;> simp [equals]) (.of_decEq n)
  | decimal x => exact .image (fun y a => by cases a <;> simp [equals]) x.fair

namespace Json

theorem allEqual_eq (xs ys : List Json) : allEqual xs ys = xs.isEqv ys equals := by
  induction xs generalizing ys with
  | nil => cases ys <;> rfl
  | cons x xs ih => cases ys <;> simp [allEqual, List.isEqv, ih]

theorem allFieldsEqual_eq (xs ys : List (String × Json)) :
    allFieldsEqual xs ys = xs.isEqv ys fun p q => p.1 = q.1 && p.2.equals q.2 := by
  induction xs generalizing ys with
  | nil => cases ys <;> rfl
  | cons x xs ih => cases ys <;> simp [allFieldsEqual, List.isEqv, ih]

theorem fair (j : Json) : Fair Json.equals j := by
  refine @Json.rec (Fair equals) (fun items => ∀ x ∈ items, Fair equals x)
    (fun fields => ∀ p ∈ fields, Fair equals p.2) (fun p => Fair equals p.2)
    ?null ?bool ?number ?string ?array ?object (by simp) (by simp +contextual) (by simp) (by simp +contextual)
    (fun _ _ h => h) j
  case null => exact .point fun k => by cases k <;> simp [equals]
  case bool => exact fun b => .image (fun c k => by cases k <;> simp [equals]) (.of_decEq b)
  case number => exact fun n => .image (fun m k => by cases k <;> simp [equals]) n.fair
  case string => exact fun s => .image (fun t k => by cases k <;> simp [equals]) (.of_decEq s)
  case array =>
    intro items h
    exact .image (fun xs k => by cases k <;> simp [equals, allEqual_eq]) (.list h)
  case object =>
    intro fields h
    have hfields : ∀ p ∈ fields, Fair (fun p q => decide (p.1 = q.1) && p.2.equals q.2) p :=
      fun p hp => (Fair.of_decEq p.1).pair (h p hp)
    exact .image (fun xs k => by cases k <;> simp [equals, allFieldsEqual_eq]) (.list hfields)

end Json

theorem Scalar.fair (s : Scalar) : Fair Scalar.equals s := by
  cases s with
  | float32 x => exact .image (fun y t => by cases t <;> simp [equals]) x.fair
  | float64 x => exact .image (fun y t => by cases t <;> simp [equals]) x.fair
  | json j => exact .image (fun k t => by cases t <;> simp [equals]) j.fair
  | _ => exact .image (fun b t => by cases t <;> simp [equals]) (.of_decEq _)

namespace Wire

theorem equalItems_eq (xs ys : List Wire) : equalItems xs ys = xs.isEqv ys equals := by
  induction xs generalizing ys with
  | nil => cases ys <;> rfl
  | cons x xs ih => cases ys <;> simp [equalItems, List.isEqv, ih]

theorem bound_fair {b : Bound Wire} (h : ∀ w ∈ b.values, Fair equals w) : Fair equalBounds b := by
  cases b with
  | inclusive w =>
    exact .image (fun v c => by cases c <;> simp [equalBounds]) (h w List.mem_cons_self)
  | exclusive w =>
    exact .image (fun v c => by cases c <;> simp [equalBounds]) (h w List.mem_cons_self)
  | unbounded => exact .point fun c => by cases c <;> simp [equalBounds]

theorem fair (w : Wire) : Fair Wire.equals w := by
  induction w using Wire.induction with
  | null => exact .point fun v => by cases v <;> simp [equals]
  | scalar s => exact .image (fun t v => by cases v <;> simp [equals]) s.fair
  | array element items ih =>
    exact Fair.image (f := fun p : String × List Wire => array p.1 p.2)
      (fun p v => by cases v <;> simp [equals, equalItems_eq, and_assoc])
      ((Fair.of_decEq element).pair (.list ih))
  | record fields ih =>
    exact .image (fun ws v => by cases v <;> simp [equals, equalItems_eq]) (.list ih)
  | range r ih =>
    cases r with
    | empty =>
      refine .point fun v => ?_
      rcases v with _ | _ | _ | _ | (_ | _) <;> simp [equals]
    | between lower upper =>
      simp only [Range.bounds, List.mem_append] at ih
      refine Fair.image (f := fun p : Bound Wire × Bound Wire => range (.between p.1 p.2)) (fun p v => ?_)
        ((bound_fair fun w hw => ih w (.inl hw)).pair (bound_fair fun w hw => ih w (.inr hw)))
      rcases v with _ | _ | _ | _ | (_ | _) <;> simp [equals, and_assoc]

end Wire
end TypedSql

import TypedSql.Proofs.Outcome
import TypedSql.Proofs.Protocol.Binary
import Mathlib.Algebra.BigOperators.Ring.List
import Mathlib.Algebra.Order.Ring.Nat
import Mathlib.Data.List.Induction
import Mathlib.Data.List.Infix

/-! Rectangular arrays put together again from their elements in the order of the rows. -/
namespace TypedSql
open Protocol

theorem Wire.allElements_eq (items : List Wire) : allElements items = items.flatMap elements := by
  induction items with
  | nil => rfl
  | cons w items ih => rw [allElements, ih, List.flatMap_cons]

theorem Wire.elements_array (name : String) (items : List Wire) :
    (Wire.array name items).elements = items.flatMap elements := by
  rw [elements, allElements_eq]

namespace Protocol

/-- Whether every product on the way to a count fits in 64 bits. -/
def CountFits (extents : List Nat) : Prop := ∀ front ∈ extents.inits, front.prod < 2 ^ 64

instance (extents : List Nat) : Decidable (CountFits extents) :=
  List.decidableBAll (fun front : List Nat => front.prod < 2 ^ 64) extents.inits

theorem countFits_append {extents : List Nat} {extent : Nat} :
    CountFits (extents ++ [extent]) ↔ CountFits extents ∧ extents.prod * extent < 2 ^ 64 := by
  simp only [CountFits, List.mem_inits, List.prefix_concat_iff, or_imp, forall_and, forall_eq, List.prod_append,
    List.prod_singleton, and_comm]

/-- The count is the product, unless a product on the way does not fit. -/
theorem elementCount_eq (extents : List Nat) :
    elementCount extents = if CountFits extents then .ok extents.prod else .error .overflow := by
  induction extents using List.reverseRecOn with
  | nil => rfl
  | append_singleton extents extent ih =>
    rw [elementCount] at ih ⊢
    simp only [List.foldlM_append, ih, countFits_append, List.prod_append, List.prod_singleton]
    by_cases hfits : CountFits extents
    · simp [hfits, checkedMul, List.foldlM]
    · simp [hfits]

theorem elementCount_eq_ok {extents : List Nat} {count : Nat} :
    elementCount extents = .ok count ↔ CountFits extents ∧ extents.prod = count := by
  rw [elementCount_eq]
  split <;> simp_all

/-- Where no extent is zero, no product on the way is greater than the last. -/
theorem countFits_of_prod_lt {extents : List Nat} (hpos : 0 ∉ extents) (h : extents.prod < 2 ^ 64) :
    CountFits extents := by
  intro front hfront
  obtain ⟨rest, rfl⟩ := (List.mem_inits _ _).mp hfront
  rw [List.mem_append, not_or] at hpos
  rw [List.prod_append] at h
  have hrest : 0 < rest.prod := Nat.pos_of_ne_zero (List.prod_ne_zero hpos.2)
  exact Nat.lt_of_le_of_lt (Nat.le_mul_of_pos_right _ hrest) h

theorem pieces_flatten {α : Type} {size : Nat} {parts : List (List α)} (h : ∀ p ∈ parts, p.length = size) :
    pieces size parts.length parts.flatten = parts := by
  induction parts with
  | nil => rfl
  | cons p parts ih =>
    obtain ⟨hp, hparts⟩ := List.forall_mem_cons.mp h
    rw [List.length_cons, pieces, List.flatten_cons, List.take_left' hp, List.drop_left' hp, ih hparts]

end Protocol

namespace Wire.Box

variable {name : String} {extents : List Nat} {w : Wire}

theorem elements_nil (h : w.Box name []) : w.elements = [w] := by
  cases w with
  | array => cases h
  | _ => rfl

theorem cons {extent : Nat} {inner : List Nat} (h : w.Box name (extent :: inner)) :
    ∃ items, w = .array name items ∧ items.length = extent ∧ ∀ i ∈ items, i.Box name inner := by
  cases w with
  | array name' items =>
    obtain ⟨rfl, hlength, hitems⟩ := h
    exact ⟨items, rfl, hlength, hitems⟩
  | _ => cases h

theorem extents_eq (h : w.Box name extents) (hpos : 0 ∉ extents) : w.extents = extents := by
  induction extents generalizing w with
  | nil =>
    cases w with
    | array => cases h
    | _ => rfl
  | cons extent inner ih =>
    obtain ⟨items, rfl, rfl, hitems⟩ := h.cons
    rw [List.mem_cons, not_or] at hpos
    cases items with
    | nil => exact absurd rfl hpos.1
    | cons i rest => rw [Wire.extents, ih (hitems i List.mem_cons_self) hpos.2, List.length_cons]

theorem elements_length (h : w.Box name extents) : w.elements.length = extents.prod := by
  induction extents generalizing w with
  | nil => rw [h.elements_nil, List.length_singleton, List.prod_nil]
  | cons extent inner ih =>
    obtain ⟨items, rfl, rfl, hitems⟩ := h.cons
    rw [elements_array, List.length_flatMap, List.prod_cons, List.map_congr_left fun i hi => ih (hitems i hi),
      List.map_const', List.sum_replicate_nat]

/-- A box is put together again from its elements. -/
theorem nest_elements (h : w.Box name extents) (hextents : extents ≠ []) (hpos : 0 ∉ extents)
    (hcount : w.elements.length < 2 ^ 64) : nest name extents w.elements = .ok w := by
  induction extents generalizing w with
  | nil => exact absurd rfl hextents
  | cons extent inner ih =>
    obtain ⟨items, rfl, rfl, hitems⟩ := h.cons
    rw [List.mem_cons, not_or] at hpos
    cases inner with
    | nil =>
      have hflat : items.flatMap elements = items := by
        rw [List.flatMap_congr fun i hi => (hitems i hi).elements_nil, List.flatMap_singleton']
      rw [elements_array, hflat, nest]
      simp
    | cons extent' inner =>
      -- no extent is zero, so the rows have no more elements than the whole
      have hrows : ∀ row ∈ items.map elements, row.length = (extent' :: inner).prod := by
        intro row hrow
        obtain ⟨i, hi, rfl⟩ := List.mem_map.mp hrow
        exact (hitems i hi).elements_length
      have hrow : ∀ i ∈ items, i.elements.length < 2 ^ 64 := by
        intro i hi
        have hle := List.Sublist.length_le
          (List.sublist_flatten_of_mem (List.mem_map_of_mem (f := Wire.elements) hi))
        rw [← List.flatMap_def, ← elements_array name] at hle
        exact Nat.lt_of_le_of_lt hle hcount
      have hinner : (items.map elements).mapM (nest name (extent' :: inner)) = .ok items :=
        mapM_eq_ok.mpr (List.forall₂_map_left_iff.mpr
          (List.forall₂_same.mpr fun i hi => ih (hitems i hi) (List.cons_ne_nil _ _) hpos.2 (hrow i hi)))
      have hsize : elementCount (extent' :: inner) = .ok (extent' :: inner).prod := by
        obtain ⟨i, hi⟩ := List.exists_mem_of_length_pos (Nat.pos_of_ne_zero (Ne.symm hpos.1))
        refine elementCount_eq_ok.mpr ⟨countFits_of_prod_lt hpos.2 ?_, rfl⟩
        rw [← (hitems i hi).elements_length]
        exact hrow i hi
      have hpieces := pieces_flatten hrows
      rw [List.length_map] at hpieces
      rw [elements_array, List.flatMap_def, nest, hsize, ok_bind, hpieces, hinner]
      rfl

end Wire.Box

namespace Wire.Rectangular

variable {name : String} {w : Wire}

/-- A rectangular array has as many elements as its extents tell. -/
theorem elements_count (h : w.Rectangular name) (hcount : w.elements.length < 2 ^ 64) :
    totalCount w.extents = .ok w.elements.length := by
  rcases h with rfl | ⟨extents, hextents, hpos, hbox⟩
  · rfl
  · rw [hbox.extents_eq hpos, totalCount, if_neg (by simpa using hextents), elementCount_eq_ok,
      ← hbox.elements_length]
    exact ⟨countFits_of_prod_lt hpos (hbox.elements_length ▸ hcount), rfl⟩

theorem nest_elements (h : w.Rectangular name) (hcount : w.elements.length < 2 ^ 64) :
    nest name w.extents w.elements = .ok w := by
  rcases h with rfl | ⟨extents, hextents, hpos, hbox⟩
  · have hnil : nest name [] [] = .ok (.array name []) := by simp [nest]
    exact hnil
  · rw [hbox.extents_eq hpos, hbox.nest_elements hextents hpos hcount]

end Wire.Rectangular
end TypedSql

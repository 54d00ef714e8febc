import TypedSql.Proofs.Sql.Visibility
import Mathlib.Data.List.Count
import Mathlib.Data.List.Infix

/-! The columns in sight when tables were entered and left in any order: those of the tables that were
entered more often than left. -/
namespace TypedSql.Sql

namespace Scope

variable {s : Scope}

/-- A column is qualified if it is out of sight, or if another table in sight has its name. -/
theorem needsQualification_iff {c : Column} : s.needsQualification c = true ↔
    s.isVisible c = false ∨ ∃ owner, (owner, c.name) ∈ s.visible.map Column.key ∧ owner ≠ c.owner := by
  have hsame (d : Column) (hname : d.name = c.name) : ¬ c.same d = true ↔ d.owner ≠ c.owner := by
    simp [Column.same, hname, eq_comm]
  simp only [needsQualification, Bool.or_eq_true, Bool.not_eq_true', List.any_eq_true, Bool.and_eq_true,
    decide_eq_true_eq, ← Bool.not_eq_true, List.mem_map, Column.key, Prod.mk.injEq]
  refine or_congr_right ⟨?_, ?_⟩
  · rintro ⟨d, hd, hname, hother⟩
    exact ⟨d.owner, ⟨d, hd, rfl, hname⟩, (hsame d hname).mp hother⟩
  · rintro ⟨_, ⟨d, hd, rfl, hname⟩, hother⟩
    exact ⟨d, hd, hname, (hsame d hname).mpr hother⟩

theorem enter_keys (t : Table) : ((s.enter t).visible.map Column.key).Perm
    (t.columns.map Column.key ++ s.visible.map Column.key) := by
  rw [enter_eq, List.map_append]
  exact ((List.reverse_perm _).map _).append_right _

/-- Leaving a table takes its columns out of sight, wherever they stand among the others. -/
theorem leave_keys {t : Table} {rest : List (String × String)}
    (h : (s.visible.map Column.key).Perm (t.columns.map Column.key ++ rest)) :
    ((s.leave t).visible.map Column.key).Perm rest := by
  have hall (cols vis : List Column) (h : (vis.map Column.key).Perm (cols.map Column.key ++ rest)) :
      ((cols.foldl (fun cs c => cs.eraseP c.same) vis).map Column.key).Perm rest := by
    induction cols generalizing vis with
    | nil => exact h
    | cons c cols ih =>
      refine ih _ ?_
      rw [Column.map_key_eraseP]
      simpa using h.erase c.key
  exact hall t.columns s.visible h

end Scope

/-- A table is brought into sight, or taken out of it. -/
inductive ScopeStep where
  | enter (t : Table)
  | leave (t : Table)

namespace ScopeStep

def run (s : Scope) : ScopeStep → Scope
  | enter t => s.enter t
  | leave t => s.leave t

/-- The scope that steps lead to from an empty one. -/
def reached (steps : List ScopeStep) : Scope := steps.foldl run .empty

open Classical in
noncomputable def timesEntered (steps : List ScopeStep) (t : Table) : Nat := steps.count (enter t)

open Classical in
noncomputable def timesLeft (steps : List ScopeStep) (t : Table) : Nat := steps.count (leave t)

/-- Whenever a table is left, it was entered before and not left since for that entering: at no point was
a table left more often than entered. Tables may be left in any order. -/
def Matched (steps : List ScopeStep) : Prop :=
  ∀ before, before <+: steps → ∀ t, timesLeft before t ≤ timesEntered before t

/-- A table was entered more often than left. -/
def Opens (steps : List ScopeStep) (t : Table) : Prop := timesLeft steps t < timesEntered steps t

/-- The tables of a bag are those that some steps leave open, each as often as it is open. -/
def LeavesOpen (steps : List ScopeStep) (bag : List Table) : Prop :=
  open Classical in ∀ t, bag.count t + timesLeft steps t = timesEntered steps t

section Bags

variable {steps : List ScopeStep} {bag : List Table} {t : Table}

theorem LeavesOpen.mem_iff (h : LeavesOpen steps bag) : t ∈ bag ↔ Opens steps t := by
  classical
  have ht := h t
  rw [← List.count_pos_iff, Opens]
  omega

theorem LeavesOpen.enter (h : LeavesOpen steps bag) : LeavesOpen (steps ++ [.enter t]) (t :: bag) := by
  classical
  intro u
  have hu := h u
  simp only [timesEntered, timesLeft, List.count_append, List.count_cons, List.count_nil, beq_iff_eq,
    enter.injEq, reduceCtorEq, reduceIte] at hu ⊢
  omega

theorem LeavesOpen.leave (h : LeavesOpen steps (t :: bag)) : LeavesOpen (steps ++ [.leave t]) bag := by
  classical
  intro u
  have hu := h u
  simp only [timesEntered, timesLeft, List.count_append, List.count_cons, List.count_nil, beq_iff_eq,
    leave.injEq, reduceCtorEq, reduceIte] at hu ⊢
  omega

theorem Matched.initial {last : List ScopeStep} (h : Matched (steps ++ last)) : Matched steps :=
  fun before hbefore => h before (hbefore.trans (List.prefix_append steps last))

end Bags

/-- In sight are the columns of the tables that are open, those of a table as often as it is open. -/
theorem reached_keys {steps : List ScopeStep} (h : Matched steps) : ∃ bag, LeavesOpen steps bag ∧
    ((reached steps).visible.map Column.key).Perm ((bag.flatMap Table.columns).map Column.key) := by
  classical
  induction steps using List.reverseRecOn with
  | nil => exact ⟨[], fun _ => rfl, .nil⟩
  | append_singleton steps last ih =>
    obtain ⟨bag, hbag, hkeys⟩ := ih h.initial
    have hreached : reached (steps ++ [last]) = run (reached steps) last := List.foldl_append
    rw [hreached]
    cases last with
    | enter t =>
      refine ⟨t :: bag, hbag.enter, (Scope.enter_keys t).trans ?_⟩
      rw [List.flatMap_cons, List.map_append]
      exact hkeys.append_left _
    | leave t =>
      -- the table is open: else it would now be left more often than entered
      have hle := h _ (List.prefix_refl _) t
      have ht : t ∈ bag := by
        rw [hbag.mem_iff, Opens]
        simp only [timesEntered, timesLeft, List.count_append, List.count_singleton, beq_iff_eq,
          reduceCtorEq, reduceIte] at hle ⊢
        omega
      have hperm := List.perm_cons_erase ht
      refine ⟨bag.erase t, LeavesOpen.leave fun u => ?_, Scope.leave_keys ?_⟩
      · rw [← hperm.count_eq]
        exact hbag u
      · rw [← List.map_append, ← List.flatMap_cons]
        exact hkeys.trans ((hperm.flatMap_right _).map _)

/-- A column is in sight exactly if a table entered more often than left has it, and is qualified exactly
if it is out of sight or such a table has a column of its name that is not the same. -/
theorem reached_sees {steps : List ScopeStep} (h : Matched steps) (c : Column) :
    ((reached steps).isVisible c = true ↔ ∃ t, Opens steps t ∧ t.owns c = true) ∧
    ((reached steps).needsQualification c = true ↔ (reached steps).isVisible c = false ∨
      ∃ t d, Opens steps t ∧ t.owns d = true ∧ d.name = c.name ∧ d.owner ≠ c.owner) := by
  obtain ⟨bag, hbag, hkeys⟩ := reached_keys h
  have hmem (d : Column) : d.key ∈ (reached steps).visible.map Column.key ↔
      ∃ t, Opens steps t ∧ t.owns d = true := by
    simp only [hkeys.mem_iff, List.map_flatMap, List.mem_flatMap, hbag.mem_iff, Table.owns,
      Column.any_same_iff]
  constructor
  · rw [Scope.isVisible, Column.any_same_iff]
    exact hmem c
  · rw [Scope.needsQualification_iff]
    refine or_congr_right ⟨?_, ?_⟩
    · rintro ⟨owner, hin, hother⟩
      obtain ⟨t, ht, howns⟩ := (hmem ⟨owner, c.name, c.type⟩).mp hin
      exact ⟨t, _, ht, howns, rfl, hother⟩
    · rintro ⟨t, d, ht, howns, hname, hother⟩
      refine ⟨d.owner, ?_, hother⟩
      rw [← hname]
      exact (hmem d).mpr ⟨t, ht, howns⟩

/-- Users are left first although they were entered first, while a table of the same name, which has its
first column twice, stays open beside the orders. -/
theorem reached_sees_interleaved :
    let int : TypeRef := .builtin .int8 false
    let users : Table := .ofColumns "users" [("id", int), ("name", int)]
    let orders : Table := .ofColumns "orders" [("id", int)]
    let members : Table := .ofColumns "users" [("id", int), ("id", int), ("email", int)]
    let steps := [enter users, enter orders, enter members, leave users]
    Matched steps ∧ (∃ t, Opens steps t ∧ t.owns ⟨"users", "id", int⟩ = true) ∧
      (∃ t d, Opens steps t ∧ t.owns d = true ∧ d.name = "id" ∧ d.owner ≠ "users") ∧
      ¬ ∃ t, Opens steps t ∧ t.owns ⟨"users", "name", int⟩ = true := by
  intro int users orders members steps
  have hmatched : Matched steps := by
    classical
    intro before hbefore t
    simp only [steps, List.prefix_cons_iff, List.prefix_nil] at hbefore
    rcases hbefore with rfl | ⟨_, rfl, rfl | ⟨_, rfl, rfl | ⟨_, rfl, rfl | ⟨_, rfl, rfl⟩⟩⟩⟩ <;>
      simp [timesEntered, timesLeft, List.count_cons]
  obtain ⟨hid, hqualified⟩ := reached_sees hmatched ⟨"users", "id", int⟩
  obtain ⟨hname, -⟩ := reached_sees hmatched ⟨"users", "name", int⟩
  refine ⟨hmatched, hid.mp (by decide), ?_, fun h => ?_⟩
  · exact (hqualified.mp (by decide)).resolve_left (by decide)
  · exact absurd (hname.mpr h) (by decide)

end ScopeStep
end TypedSql.Sql

import TypedSql.Sql.Scope
import Mathlib.Data.List.Perm.Basic

/-! What entering and leaving tables does to the columns in sight. -/
namespace TypedSql.Sql

/-- What tells columns apart. -/
def Column.key (c : Column) : String × String := (c.owner, c.name)

theorem Column.same_iff (c d : Column) : c.same d ↔ c.key = d.key := by
  simp [Column.same, Column.key]

theorem Column.any_same_iff (c : Column) (cs : List Column) : cs.any c.same = true ↔ c.key ∈ cs.map key := by
  simp only [List.any_eq_true, List.mem_map, same_iff, @eq_comm _ c.key]

theorem Column.map_key_eraseP (c : Column) (cs : List Column) :
    (cs.eraseP c.same).map key = (cs.map key).erase c.key := by
  have hp : c.same = (· == c.key) ∘ key := by
    funext d
    exact Bool.eq_iff_iff.mpr ((c.same_iff d).trans (eq_comm.trans beq_iff_eq.symm))
  rw [List.erase_eq_eraseP', List.eraseP_map, hp]

/-- The columns in sight once some tables are entered, those of the last table first. -/
def inSight (tables : List Table) (vis : List Column) : List Column :=
  (tables.flatMap Table.columns).reverse ++ vis

theorem inSight_append (tables others : List Table) (vis : List Column) :
    inSight (tables ++ others) vis = inSight others (inSight tables vis) := by
  simp [inSight]

theorem mem_inSight {tables : List Table} {vis : List Column} {c : Column} :
    c ∈ inSight tables vis ↔ (∃ t ∈ tables, c ∈ t.columns) ∨ c ∈ vis := by
  simp [inSight]

namespace Scope

theorem enter_eq (s : Scope) (t : Table) : s.enter t = ⟨t.columns.reverse ++ s.visible, s.outputs⟩ := by
  have h (cs vis : List Column) : cs.foldl (fun cs c => c :: cs) vis = cs.reverse ++ vis := by
    induction cs generalizing vis with
    | nil => rfl
    | cons c cs ih => rw [List.foldl_cons, ih, List.reverse_cons, List.append_assoc]; rfl
  rw [enter, h]

theorem enter_all (tables : List Table) (vis : List Column) (outputs : List (Fragment × Output)) :
    tables.foldl enter ⟨vis, outputs⟩ = ⟨inSight tables vis, outputs⟩ := by
  induction tables generalizing vis with
  | nil => rfl
  | cons t ts ih => rw [List.foldl_cons, enter_eq, ih]; simp [inSight]

private theorem erase_keys (cols pre vis : List Column)
    (h : (pre.map Column.key).Perm (cols.map Column.key)) :
    cols.foldl (fun cs c => cs.eraseP c.same) (pre ++ vis) = vis := by
  induction cols generalizing pre with
  | nil =>
    rw [List.map_nil, List.perm_nil, List.map_eq_nil_iff] at h
    rw [h]; rfl
  | cons c cs ih =>
    have hc : c.key ∈ pre.map Column.key := h.mem_iff.mpr (by simp)
    obtain ⟨d, hd, hk⟩ := List.mem_map.mp hc
    rw [List.foldl_cons, List.eraseP_append_left ((c.same_iff d).mpr hk.symm) _ hd]
    apply ih
    rw [Column.map_key_eraseP]
    simpa using h.erase c.key

/-- Leaving a table at once takes back exactly what entering it brought. -/
theorem leave_enter (s : Scope) (t : Table) : (s.enter t).leave t = s := by
  rw [enter_eq, leave]
  simp only
  rw [erase_keys t.columns t.columns.reverse s.visible ((List.reverse_perm _).map _)]

theorem leave_all (tables : List Table) (s : Scope) :
    tables.reverse.foldl leave (tables.foldl enter s) = s := by
  induction tables generalizing s with
  | nil => rfl
  | cons t ts ih =>
    simp only [List.reverse_cons, List.foldl_append, List.foldl_cons, List.foldl_nil, ih, leave_enter]

end Scope
end TypedSql.Sql

import TypedSql.Text.Position
import Mathlib.Data.List.Induction

/-! Every place in a text leads back to its offset in bytes. -/
namespace TypedSql.Text

@[simp] theorem byteLength_append (p q : List Char) :
    byteLength (p ++ q) = byteLength p + byteLength q := by
  induction p with
  | nil => simp [byteLength]
  | cons c p ih => simp [byteLength, ih, Nat.add_assoc]

theorem splitAtByte_append (p rest : List Char) :
    splitAtByte (p ++ rest) (byteLength p) = some (p, rest) := by
  induction p with
  | nil => cases rest <;> rfl
  | cons c p ih =>
    have hpos := c.utf8Size_pos
    obtain ⟨n, hn⟩ : ∃ n, c.utf8Size = n + 1 := ⟨c.utf8Size - 1, by omega⟩
    have hsize : byteLength (c :: p) = n + byteLength p + 1 := by rw [byteLength, hn]; omega
    have hrest : n + byteLength p + 1 - c.utf8Size = byteLength p := by omega
    rw [hsize, List.cons_append, splitAtByte, if_pos (by omega), hrest, ih]
    rfl

namespace Location

theorem advanceAll_append (l : Location) (p q : List Char) :
    l.advanceAll (p ++ q) = (l.advanceAll p).advanceAll q :=
  List.foldl_append

theorem advanceAll_line (l : Location) {cur : List Char} (h : '\n' ∉ cur) :
    l.advanceAll cur = ⟨l.line, l.column + cur.length⟩ := by
  induction cur generalizing l with
  | nil => rfl
  | cons c cur ih =>
    obtain ⟨hc, hcur⟩ : '\n' ≠ c ∧ '\n' ∉ cur := by simpa using h
    have hstep : l.advance c = ⟨l.line, l.column + 1⟩ := if_neg hc.symm
    rw [advanceAll, List.foldl_cons, hstep]
    rw [← advanceAll, ih _ hcur, List.length_cons]
    simp only [Location.mk.injEq, true_and]
    omega

/-- A text moves a place and one further on its line alike; behind a line break they are the same. -/
theorem advanceAll_further (l : Location) (further : Nat) (text : List Char) :
    Location.advanceAll ⟨l.line, l.column + further⟩ text =
      ⟨(l.advanceAll text).line, (l.advanceAll text).column + if '\n' ∈ text then 0 else further⟩ := by
  induction text generalizing l with
  | nil => rfl
  | cons c text ih =>
    simp only [advanceAll, List.foldl_cons] at ih ⊢
    by_cases hc : c = '\n'
    · simp [advance, hc]
    · have hstep : Location.advance ⟨l.line, l.column + further⟩ c = ⟨l.line, l.column + 1 + further⟩ := by
        rw [advance, if_neg hc, Nat.add_right_comm]
      have hplain : l.advance c = ⟨l.line, l.column + 1⟩ := if_neg hc
      have hmem : '\n' ∈ c :: text ↔ '\n' ∈ text := by simp [Ne.symm hc]
      simp only [hstep, hplain, hmem]
      exact ih ⟨l.line, l.column + 1⟩

/-- The place of a character is the one reached behind the text before it. -/
theorem ofPosition_append (before behind : List Char) :
    Location.ofPosition (before ++ behind) (before.length + 1) = Location.start.advanceAll before := by
  rw [ofPosition, Nat.add_sub_cancel, List.take_left]

theorem advanceAll_break (l : Location) (q : List Char) :
    l.advanceAll (q ++ ['\n']) = ⟨l.line + q.count '\n' + 1, 1⟩ := by
  have hline : (l.advanceAll q).line = l.line + q.count '\n' := by
    induction q generalizing l with
    | nil => rfl
    | cons c q ih =>
      rw [advanceAll, List.foldl_cons]
      refine (ih (l.advance c)).trans ?_
      by_cases hc : c = '\n'
      · subst hc
        simp only [advance, if_true, List.count_cons_self]
        omega
      · simp [advance, hc]
  rw [advanceAll_append]
  simp only [advanceAll, List.foldl_cons, List.foldl_nil, advance, if_true] at hline ⊢
  rw [hline]

end Location

private theorem breaksFrom_break (offset : Nat) (q rest : List Char) :
    (breaksFrom offset (q ++ '\n' :: rest))[q.count '\n']? = some (offset + byteLength (q ++ ['\n'])) := by
  induction q generalizing offset with
  | nil => simp [breaksFrom, byteLength]
  | cons c q ih =>
    have hoffset : offset + c.utf8Size + byteLength (q ++ ['\n']) =
        offset + byteLength (c :: q ++ ['\n']) := by simp [byteLength]; omega
    rw [List.cons_append, breaksFrom, ← hoffset, ← ih (offset + c.utf8Size)]
    by_cases hc : c = '\n'
    · subst hc
      simp
    · simp [hc]

/-- A text falls into whole lines and the beginning of the last one. -/
private theorem lines_split (p : List Char) :
    ∃ cur, '\n' ∉ cur ∧ (p = cur ∨ ∃ q, p = q ++ ['\n'] ++ cur) := by
  induction p using List.reverseRecOn with
  | nil => exact ⟨[], by simp, .inl rfl⟩
  | append_singleton p c ih =>
    by_cases hc : c = '\n'
    · exact ⟨[], by simp, .inr ⟨p, by simp [hc]⟩⟩
    · obtain ⟨cur, hcur, rfl | ⟨q, rfl⟩⟩ := ih
      · exact ⟨p ++ [c], by simp [hcur, Ne.symm hc], .inl rfl⟩
      · exact ⟨cur ++ [c], by simp [hcur, Ne.symm hc], .inr ⟨q, by simp⟩⟩

/-- The place reached behind a part of a text, while something follows, is that many bytes into it. -/
theorem byteOffset_advanceAll (p rest : List Char) (hrest : rest ≠ []) :
    byteOffset (p ++ rest) (lineStarts (p ++ rest)) (Location.start.advanceAll p) =
      some (byteLength p) := by
  obtain ⟨cur, hcur, hp⟩ := lines_split p
  have hlength : cur.length < (cur ++ rest).length := by
    simpa using List.length_pos_iff.mpr hrest
  rcases hp with rfl | ⟨q, rfl⟩
  · have hplace : Location.start.advanceAll p = ⟨1, p.length + 1⟩ :=
      (Location.advanceAll_line _ hcur).trans (by rw [Nat.add_comm]; rfl)
    have hsplit : splitAtByte (p ++ rest) 0 = some ([], p ++ rest) := by cases p ++ rest <;> rfl
    rw [hplace]
    simp [byteOffset, lineStarts, hsplit, hrest]
  · have hplace : Location.start.advanceAll (q ++ ['\n'] ++ cur) =
        ⟨q.count '\n' + 1 + 1, cur.length + 1⟩ := by
      rw [Location.advanceAll_append, Location.advanceAll_break, Location.advanceAll_line _ hcur]
      simp [Location.start, Nat.add_comm]
    have hstart : (lineStarts (q ++ ['\n'] ++ cur ++ rest))[q.count '\n' + 1]? =
        some (byteLength (q ++ ['\n'])) := by
      simpa [lineStarts] using breaksFrom_break 0 q (cur ++ rest)
    have hsplit := splitAtByte_append (q ++ ['\n']) (cur ++ rest)
    rw [← List.append_assoc] at hsplit
    rw [hplace]
    simp only [byteOffset, hstart, Option.bind_eq_bind, Option.bind_some, hsplit, if_pos hlength,
      List.take_left, byteLength_append _ cur]

end TypedSql.Text

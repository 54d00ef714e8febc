import TypedSql.Proofs.Text.Position

/-! Characters of a text by their number, by line and column, and by their offset in bytes: three ways to name
the same character, each of which leads to the others. -/
namespace TypedSql.Text

/-- The lines of a text, each with the line break that ends it. -/
def lines : List Char → List (List Char)
  | [] => []
  | c :: rest =>
    if c = '\n' then [c] :: lines rest
    else match lines rest with
      | [] => [[c]]
      | line :: more => (c :: line) :: more

theorem byteLength_eq (text : List Char) : byteLength text = (String.ofList text).utf8ByteSize := by
  induction text with
  | nil => rfl
  | cons c text ih =>
    rw [byteLength, ih, String.ofList_cons]
    simp

/-- A longer beginning of a text goes on behind a shorter one. -/
theorem take_further {text : List Char} {i j : Nat} (h : i < j) (hj : j ≤ text.length) :
    ∃ c between, text.take j = text.take i ++ c :: between := by
  have hsplit : text.take j = text.take i ++ (text.drop i).take (j - i) := by
    rw [← List.take_add, Nat.add_sub_cancel' (Nat.le_of_lt h)]
  have hlength : 0 < ((text.drop i).take (j - i)).length := by
    rw [List.length_take, List.length_drop]
    omega
  obtain ⟨c, between, hbetween⟩ := List.exists_cons_of_length_pos hlength
  exact ⟨c, between, by rw [hsplit, hbetween]⟩

theorem byteLength_take_lt {text : List Char} {i j : Nat} (h : i < j) (hj : j ≤ text.length) :
    byteLength (text.take i) < byteLength (text.take j) := by
  obtain ⟨c, between, hsplit⟩ := take_further h hj
  have hpos := c.utf8Size_pos
  rw [hsplit, byteLength_append, byteLength]
  omega

/-- What is never the same for two numbers up to a bound tells the number. -/
private theorem eq_iff_of_ne {α : Type} {f : Nat → α} {n i j : Nat} (hne : ∀ {i j}, i < j → j ≤ n → f i ≠ f j)
    (hi : i ≤ n) (hj : j ≤ n) : f i = f j ↔ i = j := by
  refine ⟨fun h => ?_, congrArg f⟩
  rcases Nat.lt_trichotomy i j with hlt | heq | hlt
  · exact absurd h (hne hlt hj)
  · exact heq
  · exact absurd h.symm (hne hlt hi)

/-- The bytes in front of a character tell which one it is. -/
theorem byteLength_take_inj {text : List Char} {i j : Nat} (hi : i ≤ text.length) (hj : j ≤ text.length) :
    byteLength (text.take i) = byteLength (text.take j) ↔ i = j :=
  eq_iff_of_ne (fun hlt hle => Nat.ne_of_lt (byteLength_take_lt hlt hle)) hi hj

namespace Location

/-- A character stands at a place: there is such a line in the text, and it has that many characters. -/
def Holds (l : Location) (text : List Char) : Prop :=
  ∃ i line, (lines text)[i]? = some line ∧ l.line = i + 1 ∧ 1 ≤ l.column ∧ l.column ≤ line.length

/-- The order of lines, and of columns on a line. -/
def Before (l m : Location) : Prop := l.line < m.line ∨ l.line = m.line ∧ l.column < m.column

theorem Before.trans {l m n : Location} (h : l.Before m) (h' : m.Before n) : l.Before n := by
  unfold Before at *
  omega

theorem Before.ne {l m : Location} (h : l.Before m) : l ≠ m := by
  rintro rfl
  unfold Before at h
  omega

theorem before_advance (l : Location) (c : Char) : l.Before (l.advance c) := by
  by_cases hc : c = '\n'
  · exact .inl (by rw [advance, if_pos hc]; exact Nat.lt_succ_self _)
  · exact .inr (by rw [advance, if_neg hc]; exact ⟨rfl, Nat.lt_succ_self _⟩)

theorem before_advanceAll (l : Location) (c : Char) (text : List Char) : l.Before (l.advanceAll (c :: text)) := by
  induction text generalizing l c with
  | nil => exact l.before_advance c
  | cons d text ih => exact (l.before_advance c).trans (ih (l.advance c) d)

/-- The place that a character has when `c` is put in front of its text. -/
def pushed (l : Location) (c : Char) : Location :=
  if c = '\n' then ⟨l.line + 1, l.column⟩
  else if l.line = 1 then ⟨1, l.column + 1⟩
  else l

theorem advance_pushed {l : Location} (h : 1 ≤ l.line) (c d : Char) :
    (l.pushed c).advance d = (l.advance d).pushed c := by
  obtain ⟨line, column⟩ := l
  have hline : line + 1 ≠ 1 := by dsimp only at h; omega
  by_cases hc : c = '\n'
  · by_cases hd : d = '\n' <;> simp [pushed, advance, hc, hd]
  · by_cases hd : d = '\n' <;> by_cases hfirst : line = 1 <;> simp [pushed, advance, hc, hd, hfirst]
    omega

theorem advanceAll_pushed {l : Location} (h : 1 ≤ l.line) (c : Char) (text : List Char) :
    (l.pushed c).advanceAll text = (l.advanceAll text).pushed c := by
  induction text generalizing l with
  | nil => rfl
  | cons d text ih =>
    have hnext : 1 ≤ (l.advance d).line := by
      by_cases hd : d = '\n' <;> simp [advance, hd, h]
    simp only [advanceAll, List.foldl_cons] at ih ⊢
    rw [advance_pushed h, ih hnext]

theorem holds_break (l : Location) (text : List Char) :
    l.Holds ('\n' :: text) ↔ l = start ∨ ∃ m : Location, m.Holds text ∧ l = m.pushed '\n' := by
  have hlines : lines ('\n' :: text) = ['\n'] :: lines text := rfl
  obtain ⟨line, column⟩ := l
  constructor
  · rintro ⟨i, chars, hi, rfl, hlow, hhigh⟩
    rw [hlines] at hi
    cases i with
    | zero =>
      cases hi
      obtain rfl : column = 1 := Nat.le_antisymm hhigh hlow
      exact .inl rfl
    | succ i => exact .inr ⟨⟨i + 1, column⟩, ⟨i, chars, hi, rfl, hlow, hhigh⟩, rfl⟩
  · rintro (hstart | ⟨⟨line', column'⟩, ⟨i, chars, hi, rfl, hlow, hhigh⟩, hplace⟩)
    · cases hstart
      exact ⟨0, ['\n'], rfl, rfl, Nat.le_refl 1, Nat.le_refl 1⟩
    · cases hplace
      exact ⟨i + 1, chars, hi, rfl, hlow, hhigh⟩

theorem holds_plain {c : Char} (hc : c ≠ '\n') (l : Location) (text : List Char) :
    l.Holds (c :: text) ↔ l = start ∨ ∃ m : Location, m.Holds text ∧ l = m.pushed c := by
  obtain ⟨hzero, hsucc⟩ : (lines (c :: text))[0]? = some (c :: (lines text)[0]?.getD []) ∧
      ∀ i, (lines (c :: text))[i + 1]? = (lines text)[i + 1]? := by
    rw [lines, if_neg hc]
    cases lines text with
    | nil => exact ⟨rfl, fun _ => rfl⟩
    | cons first more => exact ⟨rfl, fun _ => rfl⟩
  obtain ⟨line, column⟩ := l
  constructor
  · rintro ⟨i, chars, hi, rfl, hlow, hhigh⟩
    cases i with
    | zero =>
      rw [hzero] at hi
      cases hi
      by_cases hcolumn : column = 1
      · subst hcolumn
        exact .inl rfl
      · -- the line goes on in the text behind `c`, one column further to the left
        dsimp only at hlow
        obtain ⟨column, rfl⟩ : ∃ n, column = n + 1 + 1 := ⟨column - 2, by omega⟩
        have hlength : column + 1 ≤ ((lines text)[0]?.getD []).length := Nat.le_of_succ_le_succ hhigh
        have hplace : (⟨1, column + 1 + 1⟩ : Location) = (⟨1, column + 1⟩ : Location).pushed c := by simp [pushed, hc]
        refine .inr ⟨⟨1, column + 1⟩, ⟨0, (lines text)[0]?.getD [], ?_, rfl, Nat.succ_pos _, hlength⟩, hplace⟩
        cases hfirst : (lines text)[0]? with
        | none => simp [hfirst] at hlength
        | some first => rfl
    | succ i =>
      rw [hsucc] at hi
      exact .inr ⟨⟨i + 1 + 1, column⟩, ⟨i + 1, chars, hi, rfl, hlow, hhigh⟩, by simp [pushed, hc]⟩
  · rintro (hstart | ⟨⟨line', column'⟩, ⟨i, chars, hi, rfl, hlow, hhigh⟩, hplace⟩)
    · cases hstart
      exact ⟨0, _, hzero, rfl, Nat.le_refl 1, Nat.succ_pos _⟩
    · cases i with
      | zero =>
        rw [pushed, if_neg hc, if_pos rfl] at hplace
        cases hplace
        rw [hi] at hzero
        exact ⟨0, _, hzero, rfl, Nat.succ_pos _, Nat.succ_le_succ hhigh⟩
      | succ i =>
        rw [pushed, if_neg hc, if_neg (by simp)] at hplace
        cases hplace
        exact ⟨i + 1, chars, (hsucc i).trans hi, rfl, hlow, hhigh⟩

theorem holds_cons (l : Location) (c : Char) (text : List Char) :
    l.Holds (c :: text) ↔ l = start ∨ ∃ m : Location, m.Holds text ∧ l = m.pushed c := by
  by_cases hc : c = '\n'
  · subst hc
    exact l.holds_break text
  · exact l.holds_plain hc text

/-- A character stands exactly at the places that are reached behind a part of the text that is not all of it. -/
theorem holds_iff (l : Location) (text : List Char) :
    l.Holds text ↔ ∃ n < text.length, start.advanceAll (text.take n) = l := by
  induction text generalizing l with
  | nil => simp [Holds, lines]
  | cons c text ih =>
    rw [holds_cons]
    constructor
    · rintro (rfl | ⟨m, hm, rfl⟩)
      · exact ⟨0, Nat.succ_pos _, rfl⟩
      · obtain ⟨n, hn, rfl⟩ := (ih m).mp hm
        exact ⟨n + 1, Nat.succ_lt_succ hn, advanceAll_pushed (Nat.le_refl 1) c _⟩
    · rintro ⟨n, hn, rfl⟩
      cases n with
      | zero => exact .inl rfl
      | succ n => exact .inr ⟨_, (ih _).mpr ⟨n, Nat.lt_of_succ_lt_succ hn, rfl⟩, advanceAll_pushed (Nat.le_refl 1) c _⟩

theorem before_take {text : List Char} {i j : Nat} (h : i < j) (hj : j ≤ text.length) :
    (start.advanceAll (text.take i)).Before (start.advanceAll (text.take j)) := by
  obtain ⟨c, between, hsplit⟩ := take_further h hj
  rw [hsplit, advanceAll_append]
  exact before_advanceAll _ c between

theorem advanceAll_take_inj {text : List Char} {i j : Nat} (hi : i ≤ text.length) (hj : j ≤ text.length) :
    start.advanceAll (text.take i) = start.advanceAll (text.take j) ↔ i = j :=
  eq_iff_of_ne (fun hlt hle => (before_take hlt hle).ne) hi hj

/-- The line and the column of the character with a number lead to the offset in bytes of that character. These
are all the places where characters stand, so that each of them leads back to one number, and they come in
the order of the numbers: no two characters stand at the same place. -/
theorem positions_located (text : List Char) :
    (∀ p, 1 ≤ p → p ≤ text.length → (ofPosition text p).Holds text ∧
      byteOffset text (lineStarts text) (ofPosition text p) =
        some (String.ofList (text.take (p - 1))).utf8ByteSize) ∧
    (∀ l : Location, l.Holds text → ∃ p, 1 ≤ p ∧ p ≤ text.length ∧ ∀ q, 1 ≤ q → q ≤ text.length →
      (ofPosition text q = l ↔ q = p) ∧
      (byteOffset text (lineStarts text) l = some (String.ofList (text.take (q - 1))).utf8ByteSize ↔ q = p)) ∧
    ∀ p q, 1 ≤ p → p < q → q ≤ text.length + 1 →
      (ofPosition text p).Before (ofPosition text q) ∧ ofPosition text p ≠ ofPosition text q := by
  have hoffset {n : Nat} (hn : n < text.length) :
      byteOffset text (lineStarts text) (start.advanceAll (text.take n)) = some (byteLength (text.take n)) := by
    have hrest : text.drop n ≠ [] := by simpa using hn
    simpa only [List.take_append_drop] using byteOffset_advanceAll (text.take n) (text.drop n) hrest
  simp only [← byteLength_eq]
  refine ⟨fun p hp hp' => ?_, fun l hl => ?_, fun p q hp hpq hq => ?_⟩
  · have hlt : p - 1 < text.length := by omega
    exact ⟨(holds_iff _ text).mpr ⟨p - 1, hlt, rfl⟩, hoffset hlt⟩
  · obtain ⟨n, hn, rfl⟩ := (holds_iff l text).mp hl
    refine ⟨n + 1, Nat.succ_pos n, hn, fun q hq hq' => ?_⟩
    have hnumber : q - 1 = n ↔ q = n + 1 := by omega
    constructor
    · rw [ofPosition, advanceAll_take_inj (by omega) (by omega), hnumber]
    · rw [hoffset hn, Option.some.injEq, byteLength_take_inj (by omega) (by omega), eq_comm, hnumber]
  · have hbefore : (ofPosition text p).Before (ofPosition text q) := before_take (by omega) (by omega)
    exact ⟨hbefore, hbefore.ne⟩

/-- Behind a character of two bytes and an empty line. -/
theorem positions_located_lines :
    ofPosition "é\n\nx".toList 4 = ⟨3, 1⟩ ∧
      byteOffset "é\n\nx".toList (lineStarts "é\n\nx".toList) ⟨3, 1⟩ = some 4 := by
  have hplace : ofPosition "é\n\nx".toList 4 = ⟨3, 1⟩ := by decide
  have hoffset := ((positions_located "é\n\nx".toList).1 4 (by decide) (by decide)).2
  rw [hplace] at hoffset
  exact ⟨hplace, hoffset⟩

/-- A column that a line does not have leads into the lines behind it. -/
example : byteOffset "a\nb".toList (lineStarts "a\nb".toList) ⟨1, 3⟩ = some 2 ∧
    ofPosition "a\nb".toList 3 = ⟨2, 1⟩ := by decide

end Location
end TypedSql.Text

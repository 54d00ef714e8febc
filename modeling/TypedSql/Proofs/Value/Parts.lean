import TypedSql.Proofs.Value.Syntax

/-! Text in parts: quoted text and text within braces stays in one part, and parts come apart at the commas
between them. -/
namespace TypedSql
namespace Literal

variable {nests : Bool} {p q : List Char} {ps : List (List Char)}

theorem onto_onto (p q : List Char) (ps : List (List Char)) : onto p (onto q ps) = onto (p ++ q) ps := by
  cases ps <;> simp [onto]

theorem onto_map (p q : List Char) (parts : Option (List (List Char))) :
    onto p <$> onto q <$> parts = onto (p ++ q) <$> parts := by
  cases parts <;> simp [onto_onto]

theorem split_cons {c : Char} (hc : c ≠ '\\') (depth : Nat) (quoted : Bool) (rest : List Char) :
    split nests depth quoted (c :: rest) =
      if c = '"' then onto [c] <$> split nests depth (!quoted) rest
      else if quoted then onto [c] <$> split nests depth true rest
      else if nests && c = '\x7b' then onto [c] <$> split nests (depth + 1) false rest
      else if nests && c = '\x7d' then
        if depth = 0 then none else onto [c] <$> split nests (depth - 1) false rest
      else if depth = 0 && c = ',' then ([] :: ·) <$> split nests 0 false rest
      else onto [c] <$> split nests depth false rest := by
  rw [split]
  rintro _ _ rfl
  exact absurd rfl hc

/-- Text that stays in one part, at any depth. -/
def Whole (nests : Bool) (p : List Char) : Prop :=
  ∀ depth rest, split nests depth false (p ++ rest) = onto p <$> split nests depth false rest

theorem whole_nil : Whole nests [] := by
  intro depth rest
  rw [List.nil_append]
  rcases split nests depth false rest with _ | _ | _ <;> rfl

theorem whole_append (hp : Whole nests p) (hq : Whole nests q) : Whole nests (p ++ q) := by
  intro depth rest
  rw [List.append_assoc, hp, hq, onto_map]

/-- Text without signs of the syntax. -/
theorem whole_plain (hp : ∀ c ∈ p, c ∉ "\\\"\x7b\x7d,".toList) : Whole nests p := by
  induction p with
  | nil => exact whole_nil
  | cons c p ih =>
    obtain ⟨hc, hp⟩ := List.forall_mem_cons.mp hp
    simp only [String.reduceToList, List.mem_cons, List.not_mem_nil, or_false, not_or] at hc
    obtain ⟨hback, hquote, hopen, hclose, hcomma⟩ := hc
    have hletter : Whole nests [c] := by
      intro depth rest
      rw [List.singleton_append, split_cons hback]
      simp [hquote, hopen, hclose, hcomma]
    exact whole_append hletter (ih hp)

theorem split_escaped (text : List Char) (depth : Nat) (rest : List Char) :
    split nests depth true (text.flatMap escape ++ '"' :: rest) =
      onto (text.flatMap escape ++ ['"']) <$> split nests depth false rest := by
  induction text with
  | nil => simp [split_cons]
  | cons c text ih =>
    rw [List.flatMap_cons, escape]
    split
    · simp only [List.cons_append, List.nil_append]
      rw [split, ih, onto_map]
      rfl
    · rename_i hc
      simp only [Bool.or_eq_true, decide_eq_true_eq, not_or] at hc
      simp only [List.cons_append, List.nil_append]
      rw [split_cons hc.2, if_neg hc.1, if_pos rfl, ih, onto_map]
      rfl

theorem whole_quote (text : List Char) : Whole nests (quote text) := by
  intro depth rest
  simp only [quote, List.cons_append, List.append_assoc, List.nil_append]
  rw [split_cons (by decide), if_pos rfl, Bool.not_false, split_escaped, onto_map]
  rfl

/-- Within braces commas separate nothing. -/
theorem split_nested (hps : ∀ p ∈ ps, Whole true p) (depth : Nat) (rest : List Char) :
    split true (depth + 1) false (commas ps ++ rest) =
      onto (commas ps) <$> split true (depth + 1) false rest := by
  induction ps using commas.induct with
  | case1 => exact whole_nil _ _
  | case2 p => exact hps p List.mem_cons_self _ _
  | case3 p ps hne ih =>
    obtain ⟨hp, hps⟩ := List.forall_mem_cons.mp hps
    have hcomma (rest : List Char) : split true (depth + 1) false (',' :: rest) =
        onto [','] <$> split true (depth + 1) false rest := by simp [split_cons]
    rw [commas, List.append_assoc, hp, List.cons_append, hcomma, ih hps, onto_map, onto_map]
    · simp
    · exact hne

theorem whole_braces (hps : ∀ p ∈ ps, Whole true p) :
    Whole true ('\x7b' :: commas ps ++ ['\x7d']) := by
  intro depth rest
  have hopen (rest : List Char) : split true depth false ('\x7b' :: rest) =
      onto ['\x7b'] <$> split true (depth + 1) false rest := by simp [split_cons]
  have hclose (rest : List Char) : split true (depth + 1) false ('\x7d' :: rest) =
      onto ['\x7d'] <$> split true depth false rest := by simp [split_cons]
  simp only [List.cons_append, List.append_assoc, List.nil_append]
  rw [hopen, split_nested hps, hclose, onto_map, onto_map]
  simp

theorem split_commas (hps : ∀ p ∈ ps, Whole nests p) (hne : ps ≠ []) :
    split nests 0 false (commas ps) = some ps := by
  induction ps using commas.induct with
  | case1 => exact absurd rfl hne
  | case2 p =>
    have hp := hps p List.mem_cons_self 0 []
    simpa [commas, split, onto] using hp
  | case3 p ps hcons ih =>
    obtain ⟨hp, hps⟩ := List.forall_mem_cons.mp hps
    rw [commas, hp, split_cons (by decide), ih hps]
    · simp [onto]
    · exact fun h => hcons h
    · exact hcons

theorem unquote_escaped (text : List Char) : unquote true (text.flatMap escape ++ ['"']) = some text := by
  induction text with
  | nil => simp [unquote]
  | cons c text ih =>
    rw [List.flatMap_cons, escape]
    split
    · simp [unquote, ih]
    · rename_i hc
      simp only [Bool.or_eq_true, decide_eq_true_eq, not_or] at hc
      rw [List.append_assoc, List.singleton_append, unquote]
      · simp [hc.1, ih]
      · exact hc.2
      · rintro _ _ rfl
        exact absurd rfl hc.1

@[simp] theorem unquote_quote (text : List Char) : unquote false (quote text) = some text := by
  rw [quote, List.cons_append, unquote]
  · simpa using unquote_escaped text
  · decide
  · rintro _ h
    cases h

@[simp] theorem enclosed_between (opening closing : Char) (body : List Char) :
    enclosed (opening :: body ++ [closing]) = some (opening, body, closing) := by
  simp [enclosed]

theorem commas_isEmpty (hps : [] ∉ ps) : (commas ps).isEmpty = ps.isEmpty := by
  match ps with
  | [] => rfl
  | [p] =>
    cases p with
    | nil => exact absurd List.mem_cons_self hps
    | cons c p => rfl
  | p :: q :: ps => simp [commas]

theorem isWord_null {c : Char} (hc : c.toLower ≠ 'n') (rest : List Char) :
    isWord "null" (c :: rest) = false := by
  simp [isWord, hc]

section Reading

variable (read : List Char → Option Outline) (text : List Char)

@[simp] theorem readElement_quote : readElement false read (quote text) = read text := by
  have hword : isWord "null" (quote text) = false := isWord_null (by decide) _
  have hne : (quote text).isEmpty = false := rfl
  have hbrace : (quote text).head? ≠ some '\x7b' := by simp [quote]
  simp [readElement, hword, hne, hbrace]

@[simp] theorem readElement_braces :
    readElement true read ('\x7b' :: text) = read ('\x7b' :: text) := by
  simp [readElement, isWord_null (c := '\x7b') (by decide)]

@[simp] theorem readField_quote : readField read (quote text) = read text := by
  have hne : (quote text).isEmpty = false := rfl
  simp [readField, hne]

@[simp] theorem readBound_quote (included : Bool) : readBound included read (quote text) =
    (if included then .inclusive else .exclusive) <$> read text := by
  have hne : (quote text).isEmpty = false := rfl
  simp [readBound, hne]

end Reading

end Literal
end TypedSql

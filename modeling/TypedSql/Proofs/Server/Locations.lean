import TypedSql.Server.Describe
import TypedSql.Server.Exchange
import TypedSql.Proofs.Sql.FreeMarks

/-! Where a fault is reported and where it stands in the statement as it was written. The server counts
characters of the numbered text, in which a number is longer than the question mark it stands for. -/
namespace TypedSql.Sql
open Text

section Numbering

/-- The numbers in a text go on behind its beginning. -/
private theorem numberedText_append (count : Nat) (before after : List Chunk) :
    ∃ count', numberedText count (before ++ after) = numberedText count before ++ numberedText count' after := by
  induction before generalizing count with
  | nil => exact ⟨count, rfl⟩
  | cons c before ih =>
    cases c with
    | mark =>
      obtain ⟨count', h⟩ := ih (count + 1)
      exact ⟨count', by rw [List.cons_append, numberedText, numberedText, h, List.append_assoc]⟩
    | plain | quoted =>
      obtain ⟨count', h⟩ := ih count
      exact ⟨count', by simp only [List.cons_append, numberedText, h, List.append_assoc]⟩

/-- A position in a numbered text, counted from one, that is behind the dollar sign of a number. -/
def Inside (chunks : List Chunk) (position : Nat) : Prop :=
  ∃ before after, chunks = before ++ .mark :: after ∧ (numberedText 0 before).length + 1 < position ∧
    position ≤ (numberedText 0 (before ++ [.mark])).length

/-- Every other position is behind a beginning of the text. -/
theorem Spelled.split {chunks : List Chunk} (h : Spelled chunks) {position : Nat} (hpositive : 0 < position)
    (hwithin : position ≤ (numberedText 0 chunks).length + 1) (hinside : ¬ Inside chunks position) :
    ∃ before after, chunks = before ++ after ∧ position = (numberedText 0 before).length + 1 := by
  -- from the end: how long a number is depends on what stands before it
  induction chunks using List.reverseRecOn with
  | nil =>
    have hfirst : position ≤ 1 := hwithin
    exact ⟨[], [], rfl, by rw [numberedText, List.length_nil]; omega⟩
  | append_singleton chunks c ih =>
    by_cases hbefore : position ≤ (numberedText 0 chunks).length + 1
    · have hchunks : Spelled chunks := fun d hd => h d (List.mem_append_left _ hd)
      have houtside : ¬ Inside chunks position := by
        rintro ⟨before, after, rfl, hlow, hhigh⟩
        exact hinside ⟨before, after ++ [c], by rw [List.append_assoc, List.cons_append], hlow, hhigh⟩
      obtain ⟨before, after, rfl, hposition⟩ := ih hchunks hbefore houtside
      exact ⟨before, after ++ [c], List.append_assoc .., hposition⟩
    · refine ⟨chunks ++ [c], [], (List.append_nil _).symm, ?_⟩
      obtain rfl | ⟨d, rfl⟩ := h c (List.mem_append_right _ List.mem_cons_self)
      · have hbehind : ¬ position ≤ (numberedText 0 (chunks ++ [.mark])).length :=
          fun hhigh => hinside ⟨chunks, [], rfl, by omega, hhigh⟩
        omega
      · obtain ⟨count, hcount⟩ := numberedText_append 0 chunks [.plain [d]]
        have hlength : (numberedText 0 (chunks ++ [.plain [d]])).length = (numberedText 0 chunks).length + 1 := by
          rw [hcount, List.length_append]
          rfl
        omega

end Numbering

section Lines

/-- By how many characters the numbers above `count` make the last line longer than it was written, where the
line has grown by some before. -/
def growth (count grown : Nat) : List Chunk → Nat
  | [] => grown
  | .mark :: rest => growth (count + 1) (grown + (Nat.toDigits 10 (count + 1)).length) rest
  | c :: rest => growth count (if '\n' ∈ c.text then 0 else grown) rest

/-- Numbering leaves the lines as they are and moves what follows on the last one. -/
theorem advanceAll_numberedText (l : Location) (count grown : Nat) (chunks : List Chunk) :
    Location.advanceAll ⟨l.line, l.column + grown⟩ (numberedText count chunks) =
      ⟨(l.advanceAll (chunksText chunks)).line,
        (l.advanceAll (chunksText chunks)).column + growth count grown chunks⟩ := by
  induction chunks generalizing l count grown with
  | nil => rfl
  | cons c chunks ih =>
    have hwhole := Location.advanceAll_append l c.text (chunksText chunks)
    rw [chunksText_cons, hwhole]
    by_cases hc : c = .mark
    · subst hc
      have hdigits : '\n' ∉ numberText (count + 1) := by
        rw [numberText, List.mem_cons, not_or]
        exact ⟨by decide, fun hmem => absurd (Nat.isDigit_of_mem_toDigits (by decide) (by decide) hmem) (by decide)⟩
      have hmark : l.advanceAll ['?'] = ⟨l.line, l.column + 1⟩ := rfl
      have hnumber : Location.advanceAll ⟨l.line, l.column + grown⟩ (numberText (count + 1)) =
          ⟨l.line, l.column + 1 + (grown + (Nat.toDigits 10 (count + 1)).length)⟩ := by
        rw [Location.advanceAll_line _ hdigits, numberText, List.length_cons]
        simp only [Location.mk.injEq, true_and]
        omega
      rw [numberedText, Location.advanceAll_append, hnumber, Chunk.text, hmark, growth]
      exact ih ⟨l.line, l.column + 1⟩ (count + 1) _
    · have hplain : numberedText count (c :: chunks) = c.text ++ numberedText count chunks :=
        numberedText.eq_3 count c chunks hc
      have hgrowth : growth count grown (c :: chunks) = growth count (if '\n' ∈ c.text then 0 else grown) chunks :=
        growth.eq_3 count grown c chunks hc
      rw [hplain, hgrowth, Location.advanceAll_append, Location.advanceAll_further]
      exact ih (l.advanceAll c.text) count _

private theorem forall_marks_cons {P : List Chunk → Prop} (c : Chunk) (rest : List Chunk) :
    (∀ before after, c :: rest = before ++ .mark :: after → P after) ↔
      (c = .mark → P rest) ∧ ∀ before after, rest = before ++ .mark :: after → P after := by
  constructor
  · intro h
    exact ⟨fun hc => h [] rest (by rw [hc, List.nil_append]),
      fun before after hrest => h (c :: before) after (by rw [hrest, List.cons_append])⟩
  · rintro ⟨hfirst, hrest⟩ before after hsplit
    cases before with
    | nil =>
      obtain ⟨rfl, rfl⟩ := List.cons.inj hsplit
      exact hfirst rfl
    | cons d before => exact hrest before after (List.cons.inj hsplit).2

/-- The last line is as long as it was written if no placeholder stands on it. -/
theorem growth_eq_zero (count grown : Nat) (chunks : List Chunk) : growth count grown chunks = 0 ↔
    (grown = 0 ∨ '\n' ∈ chunksText chunks) ∧
      ∀ before after, chunks = before ++ .mark :: after → '\n' ∈ chunksText after := by
  induction chunks generalizing count grown with
  | nil => simp [growth, chunksText]
  | cons c chunks ih =>
    rw [forall_marks_cons (P := fun after => '\n' ∈ chunksText after), chunksText_cons]
    by_cases hc : c = .mark
    · subst hc
      have hdigits : 0 < (Nat.toDigits 10 (count + 1)).length := Nat.length_toDigits_pos
      have hgrown : grown + (Nat.toDigits 10 (count + 1)).length ≠ 0 := by omega
      have hmark : '\n' ∉ Chunk.mark.text := by decide
      rw [growth, ih, or_iff_right hgrown, List.mem_append, or_iff_right hmark]
      tauto
    · have hgrowth : growth count grown (c :: chunks) = growth count (if '\n' ∈ c.text then 0 else grown) chunks :=
        growth.eq_3 count grown c chunks hc
      rw [hgrowth, ih, List.mem_append]
      by_cases hbreak : '\n' ∈ c.text
      · simp [hbreak, hc]
      · simp [hbreak, hc]

/-- What a position in the numbered text is in the text as it was written: on the same line, and as many columns
before as the numbers on the line have made it longer. -/
theorem ofPosition_numberedText (before after : List Chunk) :
    let written := Location.ofPosition (chunksText (before ++ after)) ((chunksText before).length + 1)
    Location.ofPosition (numberedText 0 (before ++ after)) ((numberedText 0 before).length + 1) =
      ⟨written.line, written.column + growth 0 0 before⟩ := by
  intro written
  obtain ⟨count, hnumbered⟩ := numberedText_append 0 before after
  have htext : chunksText (before ++ after) = chunksText before ++ chunksText after := List.flatMap_append
  have hplace := advanceAll_numberedText .start 0 0 before
  rw [hnumbered, Location.ofPosition_append]
  simp only [written, htext, Location.ofPosition_append]
  exact hplace

end Lines
end TypedSql.Sql

namespace TypedSql.Server
open Sql Protocol Text

/-- The faults that a server finds with a statement. -/
def Answer.faults (answer : Answer) : List ServerFault :=
  answer.refusal.toList ++ match answer.ending with
    | .fault f => [f]
    | _ => []

/-- A server error that an operation reports for a statement text, with the faults that the server found. -/
inductive Reported (sql : String) : List ServerFault → ServerError → Prop
  | execute {r : Rendered} {answer : Answer} {context : List String} {e : ServerError} (hsql : r.sql = sql)
      (hfailed : (execute r answer).1 = .error ⟨context, .server e⟩) : Reported sql answer.faults e
  | query {r : Rendered} {answer : Answer} {context : List String} {e : ServerError} (hsql : r.sql = sql)
      (hfailed : (query r answer).1 = .error ⟨context, .server e⟩) : Reported sql answer.faults e
  | describe {report : Report} {context : List String} {e : ServerError}
      (hfailed : describe sql report = .error ⟨context, .server e⟩) : Reported sql report.refusal.toList e

/-- Faults of the server are not met while its answer is read. -/
theorem readRecord_error {outputs : List Output} {columns : List (String × ServerType)}
    {row : List (Option (List UInt8))} {failure : Failure} (h : readRecord outputs columns row = .error failure)
    (e : ServerError) : failure.cause ≠ .server e := by
  have houtput {o : Output} (ho : readOutput columns row o = .error failure) : failure.cause ≠ .server e := by
    simp only [readOutput] at ho
    split at ho
    · cases ho
      nofun
    · split at ho
      · split at ho
        · cases ho
        · cases ho
          nofun
        · cases ho
          nofun
      · cases ho
  cases hwires : outputs.mapM (readOutput columns row) with
  | error problem =>
    rw [readRecord, hwires, error_bind] at h
    cases h
    obtain ⟨o, -, ho⟩ := mapM_error hwires
    exact houtput ho
  | ok wires =>
    rw [readRecord, hwires, ok_bind] at h
    cases hrow : decodeRow outputs wires with
    | error problem =>
      rw [hrow] at h
      cases h
      nofun
    | ok record =>
      rw [hrow] at h
      cases h

theorem encodeParams_error {index : Nat} {params : List Parameter} {types : List ServerType} {failure : LinkFailure}
    (h : encodeParams index params types = .error failure) : ∃ i, failure = .parameter i := by
  induction params generalizing index types with
  | nil => cases h
  | cons p params ih =>
    cases types with
    | nil => cases h
    | cons t types =>
      cases hencode : encode t p.value with
      | ok payload =>
        rw [encodeParams, hencode] at h
        exact ih (map_eq_error.mp h)
      | error problem =>
        rw [encodeParams, hencode] at h
        exact ⟨index, (Except.error.inj h).symm⟩

/-- A run reports a server error only for the text that was sent, and only a fault that the server found. -/
theorem run_error {α : Type} {r : Rendered} {answer : Answer}
    {read : String → List (List (Option (List UInt8))) → Except Failure α} {context : List String} {e : ServerError}
    (h : (run r answer read).1 = .error ⟨context, .server e⟩)
    (hread : ∀ tag rows, read tag rows ≠ .error ⟨context, .server e⟩) :
    ∃ (numbered : String) (failure : LinkFailure), numberPlaceholders r.sql = .ok numbered ∧
      e = failure.toError numbered ∧ ∀ f, failure = .fault f → f ∈ answer.faults := by
  unfold run at h
  cases hnumbered : r.numberedSql with
  | error problem =>
    rw [hnumbered] at h
    cases h
  | ok numbered =>
    rw [hnumbered] at h
    refine ⟨numbered, ?_⟩
    dsimp only at h
    by_cases hsendable : (!isSendable numbered) = true
    · rw [if_pos hsendable] at h
      cases h
      exact ⟨.unsendable, hnumbered, rfl, nofun⟩
    rw [if_neg hsendable] at h
    cases hrefusal : answer.refusal with
    | some f =>
      rw [hrefusal] at h
      cases h
      refine ⟨.fault f, hnumbered, rfl, ?_⟩
      rintro _ ⟨⟩
      simp [Answer.faults, hrefusal]
    | none =>
      rw [hrefusal] at h
      dsimp only at h
      by_cases hcount : r.params.length ≠ answer.params.length
      · rw [if_pos hcount] at h
        cases h
        exact ⟨_, hnumbered, rfl, nofun⟩
      rw [if_neg hcount] at h
      cases hbinds : encodeParams 0 r.params answer.params with
      | error failure =>
        obtain ⟨i, rfl⟩ := encodeParams_error hbinds
        rw [hbinds] at h
        cases h
        exact ⟨_, hnumbered, rfl, nofun⟩
      | ok binds =>
        rw [hbinds] at h
        cases hending : answer.ending with
        | fault f =>
          rw [hending] at h
          cases h
          refine ⟨.fault f, hnumbered, rfl, ?_⟩
          rintro _ ⟨⟩
          simp [Answer.faults, hending]
        | hangUp =>
          rw [hending] at h
          cases h
          exact ⟨.closed, hnumbered, rfl, nofun⟩
        | complete tag rows =>
          rw [hending] at h
          exact absurd h (hread tag rows)

/-- What an operation reports is reported for the numbered text. -/
theorem Reported.failure {sql : String} {faults : List ServerFault} {e : ServerError} (h : Reported sql faults e) :
    ∃ (numbered : String) (failure : LinkFailure), numberPlaceholders sql = .ok numbered ∧
      e = failure.toError numbered ∧ ∀ f, failure = .fault f → f ∈ faults := by
  cases h with
  | execute hsql hfailed =>
    subst hsql
    exact run_error hfailed fun _ _ => nofun
  | query hsql hfailed =>
    subst hsql
    refine run_error hfailed fun _ rows hrows => ?_
    obtain ⟨row, -, hrow⟩ := mapM_error hrows
    exact readRecord_error hrow _ rfl
  | describe hfailed =>
    rename_i report context
    unfold Server.describe at hfailed
    cases hnumbered : numberPlaceholders sql with
    | error problem =>
      rw [hnumbered] at hfailed
      cases hfailed
    | ok numbered =>
      rw [hnumbered] at hfailed
      refine ⟨numbered, ?_⟩
      dsimp only at hfailed
      by_cases hsendable : numbered.toList.contains '\x00' = true
      · rw [if_pos hsendable] at hfailed
        cases hfailed
        exact ⟨.unsendable, rfl, rfl, nofun⟩
      rw [if_neg hsendable] at hfailed
      cases hrefusal : report.refusal with
      | some f =>
        rw [hrefusal] at hfailed
        cases hfailed
        refine ⟨.fault f, rfl, rfl, ?_⟩
        rintro _ ⟨⟩
        simp
      | none =>
        rw [hrefusal] at hfailed
        cases hfailed

/-- A text that the server refuses fails with the fault, placed in the numbered text. -/
theorem describe_refused {sql numbered : String} (report : Report) {f : ServerFault}
    (hnumbered : numberPlaceholders sql = .ok numbered) (hsendable : '\x00' ∉ numbered.toList)
    (hrefusal : report.refusal = some f) :
    describe sql report = .error ⟨[], .server ((LinkFailure.fault f).toError numbered)⟩ := by
  simp [describe, hnumbered, hsendable, hrefusal]

/-- A server error is placed in the numbered text. Of a character that is not inside a number this is the line
on which it was written, and its column there with the digits of all numbers before it on the line added: the place
where it was written if and only if no placeholder stands before it on its line. -/
theorem reported_location {sql : String} {faults : List ServerFault} {e : ServerError} (h : Reported sql faults e) :
    ∃ numbered chunks, numberPlaceholders sql = .ok numbered ∧ Spelled chunks ∧ chunksText chunks = sql.toList ∧
      numberedText 0 chunks = numbered.toList ∧
      (e.code = "" ∧ e.location = none ∨
        ∃ f ∈ faults, e.message = f.message ∧ e.location = f.position.map (Location.ofPosition numbered.toList)) ∧
      ∀ position, 0 < position → position ≤ numbered.toList.length + 1 → ¬ Inside chunks position →
        ∃ before after, chunks = before ++ after ∧ position = (numberedText 0 before).length + 1 ∧
          let written := Location.ofPosition sql.toList ((chunksText before).length + 1)
          Location.ofPosition numbered.toList position = ⟨written.line, written.column + growth 0 0 before⟩ ∧
          (Location.ofPosition numbered.toList position = written ↔
            ∀ front rest, before = front ++ .mark :: rest → '\n' ∈ chunksText rest) := by
  obtain ⟨numbered, failure, hnumbered, rfl, hfaults⟩ := h.failure
  obtain ⟨chunks, hspelled, htext, htext'⟩ := numberPlaceholders_spelled hnumbered
  refine ⟨numbered, chunks, hnumbered, hspelled, htext, htext', ?_, ?_⟩
  · cases failure with
    | fault f => exact .inr ⟨f, hfaults f rfl, rfl, rfl⟩
    | _ => exact .inl ⟨rfl, rfl⟩
  · intro position hpositive hwithin hinside
    rw [← htext'] at hwithin
    obtain ⟨before, after, rfl, rfl⟩ := hspelled.split hpositive hwithin hinside
    have hplace := ofPosition_numberedText before after
    rw [htext, htext'] at hplace
    refine ⟨before, after, rfl, rfl, hplace, ?_⟩
    have hzero : growth 0 0 before = 0 ↔ ∀ front rest, before = front ++ .mark :: rest → '\n' ∈ chunksText rest := by
      simpa only [true_or, true_and] using growth_eq_zero 0 0 before
    have hmoved (l : Location) (further : Nat) : (⟨l.line, l.column + further⟩ : Location) = l ↔ further = 0 := by
      cases l
      simp
    rw [hplace, hmoved, hzero]

/-- Behind a line break a place is the one that was written, up to the next placeholder. -/
theorem reported_location_second_line :
    let sql := "SELECT ?,\n x, ?"
    let f : ServerFault := ⟨"42703", "column \"x\" does not exist", none, none, none, some 13⟩
    ∃ e, Reported sql [f] e ∧ e.location = some ⟨2, 2⟩ ∧ Location.ofPosition sql.toList 12 = ⟨2, 2⟩ := by
  intro sql f
  have hnumbered : numberPlaceholders "SELECT ?,\n x, ?" = .ok "SELECT $1,\n x, $2" := rfl
  have hreported : Reported sql [f] ((LinkFailure.fault f).toError "SELECT $1,\n x, $2") :=
    .describe (describe_refused ⟨some f, [], [], []⟩ hnumbered (by decide) rfl)
  obtain ⟨numbered, chunks, hnumbered', -, -, -, hlocation, -⟩ := reported_location hreported
  obtain rfl : "SELECT $1,\n x, $2" = numbered := Except.ok.inj (hnumbered.symm.trans hnumbered')
  obtain ⟨hcode, -⟩ | ⟨_, hf, -, hplace⟩ := hlocation
  · exact absurd hcode (show "42703" ≠ "" by decide)
  · obtain rfl := List.mem_singleton.mp hf
    have hwritten : Location.ofPosition "SELECT ?,\n x, ?".toList 12 = ⟨2, 2⟩ := by decide
    exact ⟨_, hreported, hplace, hwritten⟩

/-- A fault at the twelfth character of the numbered text is reported in column 12; the character was written in
column 11. -/
theorem reported_location_moved :
    let sql := "SELECT ?, x"
    let f : ServerFault := ⟨"42703", "column \"x\" does not exist", none, none, none, some 12⟩
    let before := plains "SELECT ".toList ++ .mark :: plains ", ".toList
    let after := plains ['x']
    Spelled (before ++ after) ∧ chunksText (before ++ after) = sql.toList ∧
      numberPlaceholders sql = .ok (String.ofList (numberedText 0 (before ++ after))) ∧
      f.position = some ((numberedText 0 before).length + 1) ∧
      ∃ e, Reported sql [f] e ∧ e.location = some ⟨1, 12⟩ ∧
        Location.ofPosition sql.toList ((chunksText before).length + 1) = ⟨1, 11⟩ := by
  intro sql f before after
  have hspelled : Spelled (before ++ after) :=
    marked_spelled [⟨.word, "SELECT ".toList⟩, ⟨.placeholder, "?, ".toList⟩, ⟨.word, ['x']⟩]
  have hnumbered : numberPlaceholders "SELECT ?, x" = .ok "SELECT $1, x" := rfl
  have hreported : Reported sql [f] ((LinkFailure.fault f).toError "SELECT $1, x") :=
    .describe (describe_refused ⟨some f, [], [], []⟩ hnumbered (by decide) rfl)
  have hlocation : Location.ofPosition "SELECT $1, x".toList 12 = ⟨1, 12⟩ := by decide
  have hwritten : Location.ofPosition "SELECT ?, x".toList 11 = ⟨1, 11⟩ := by decide
  exact ⟨hspelled, by decide, hnumbered, by decide, _, hreported, congrArg some hlocation, hwritten⟩

end TypedSql.Server

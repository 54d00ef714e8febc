import TypedSql.Proofs.Sql.Writing

/-! The outermost list of a statement: each text once, under a name of its own. -/
namespace TypedSql.Sql
open Rendering

/-- The entries of a list, each with the text it would be written with. -/
def Target.entries (vis : List Column) (targets : List Target) :
    Except Error (List (Target × Fragment)) :=
  targets.mapM fun t => (t, ·) <$> t.expr.pieces vis

/-- The entries that are written: those whose text is not among the texts written before. -/
def Target.kept (seen : List Fragment) : List (Target × Fragment) → List (Target × Fragment)
  | [] => []
  | (t, f) :: rest =>
    if seen.any (·.same f) then Target.kept seen rest else (t, f) :: Target.kept (seen ++ [f]) rest

/-- A text with the name of its output. -/
def namedPieces (f : Fragment) (index : Nat) : Fragment :=
  f ++ [.text " AS ", .text (Scope.outputName index)]

/-- Texts with the names of their outputs, counted from `index`, each behind a comma. -/
def listRest (index : Nat) : List Fragment → Fragment
  | [] => []
  | f :: rest => .text ", " :: namedPieces f index ++ listRest (index + 1) rest

/-- Texts with the names of their outputs; the first has a comma only if something stands before it. -/
def listPieces (first : Bool) (index : Nat) : List Fragment → Fragment
  | [] => []
  | f :: rest =>
    (if first then [] else [.text ", "]) ++ namedPieces f index ++ listRest (index + 1) rest

theorem listPieces_false (index : Nat) (fs : List Fragment) :
    listPieces false index fs = listRest index fs := by
  cases fs <;> rfl

theorem listPieces_cons (first : Bool) (index : Nat) (f : Fragment) (fs : List Fragment) :
    listPieces first index (f :: fs) =
      (if first then [] else [.text ", "]) ++ namedPieces f index ++ listRest (index + 1) fs := rfl

/-- Texts with the names of their outputs, counted from `index`. -/
def namedTexts (index : Nat) : List Fragment → List Fragment
  | [] => []
  | f :: rest => namedPieces f index :: namedTexts (index + 1) rest

theorem listRest_joined (f : Fragment) (index : Nat) (fs : List Fragment) :
    f ++ listRest index fs = joined ", " (f :: namedTexts index fs) := by
  induction fs generalizing f index with
  | nil => simp [listRest, namedTexts, joined]
  | cons g fs ih => rw [listRest, namedTexts, joined_cons_cons, ← ih, List.cons_append]

theorem listPieces_joined (fs : List Fragment) :
    listPieces true 0 fs = joined ", " (namedTexts 0 fs) := by
  cases fs with
  | nil => rfl
  | cons f fs => exact listRest_joined (namedPieces f 0) 1 fs

/-- The outputs once every entry has claimed its own or shared one. -/
def claimAll (outputs : List (Fragment × Output)) (entries : List (Target × Fragment)) :
    List (Fragment × Output) :=
  entries.foldl (fun outs (t, f) => ((Scope.mk [] outs).claim f t.field t.type).2.outputs) outputs

theorem shareOutput_isSome (f : Fragment) (field : String) (outputs : List (Fragment × Output)) :
    (Scope.shareOutput f field outputs).isSome = (outputs.map Prod.fst).any (·.same f) := by
  induction outputs with
  | nil => rfl
  | cons o rest ih =>
    obtain ⟨g, o⟩ := o
    by_cases h : g.same f <;> simp [Scope.shareOutput, h, ih]

theorem shareOutput_texts {f : Fragment} {field : String} {outputs outputs' : List (Fragment × Output)}
    (h : Scope.shareOutput f field outputs = some outputs') :
    outputs'.map Prod.fst = outputs.map Prod.fst := by
  induction outputs generalizing outputs' with
  | nil => simp [Scope.shareOutput] at h
  | cons o rest ih =>
    obtain ⟨g, o⟩ := o
    rw [Scope.shareOutput] at h
    split at h
    · cases h; rfl
    · obtain ⟨rest', hr, rfl⟩ := Option.map_eq_some_iff.mp h
      simp [ih hr]

private theorem capture_eq (step : Rendering Unit) (c : Canvas) : (capture step).run c =
    ((step.run { c with written := [] }).1.map fun _ => (step.run { c with written := [] }).2.written,
      { (step.run { c with written := [] }).2 with written := c.written }) := rfl

theorem run_capture {vis : List Column} {step : Rendering Unit} {f : Fragment}
    (h : Adds vis step (.ok f)) (outputs : List (Fragment × Output)) (w : Fragment) :
    (capture step).run ⟨⟨vis, outputs⟩, w⟩ = (.ok f, ⟨⟨vis, outputs⟩, w⟩) := by
  rw [capture_eq, h]; rfl

/-- A captured step that fails keeps the scope it reached, but nothing that it wrote. -/
theorem run_capture_error {step : Rendering Unit} {s : Scope} {x : Error} {c : Canvas}
    (h : step.run ⟨s, []⟩ = (.error x, c)) (w : Fragment) :
    (capture step).run ⟨s, w⟩ = (.error x, ⟨c.scope, w⟩) := by
  rw [capture_eq, h]; rfl

private theorem run_claim (f : Fragment) (field : String) (type : TypeRef) (vis : List Column)
    (outputs : List (Fragment × Output)) (w : Fragment) :
    (claim f field type).run ⟨⟨vis, outputs⟩, w⟩ =
      if (outputs.map Prod.fst).any (·.same f) then
        (.ok none, ⟨⟨vis, ((Scope.mk [] outputs).claim f field type).2.outputs⟩, w⟩)
      else (.ok (some (Scope.outputName outputs.length)),
        ⟨⟨vis, ((Scope.mk [] outputs).claim f field type).2.outputs⟩, w⟩) := by
  have hs := shareOutput_isSome f field outputs
  change (Except.ok ((Scope.mk vis outputs).claim f field type).1,
    Canvas.mk ((Scope.mk vis outputs).claim f field type).2 w) = _
  rw [← hs]
  unfold Scope.claim
  cases Scope.shareOutput f field outputs <;> rfl

theorem claim_texts (f : Fragment) (t : Target) (outputs : List (Fragment × Output)) :
    ((Scope.mk [] outputs).claim f t.field t.type).2.outputs.map Prod.fst =
      if (outputs.map Prod.fst).any (·.same f) then outputs.map Prod.fst
      else outputs.map Prod.fst ++ [f] := by
  have hs := shareOutput_isSome f t.field outputs
  rw [← hs]
  unfold Scope.claim
  cases h : Scope.shareOutput f t.field outputs with
  | none => simp
  | some outputs' => simpa using shareOutput_texts h

private theorem run_put (f : Fragment) (c : Canvas) :
    (put f).run c = (.ok (), { c with written := c.written ++ f }) := rfl

private theorem run_entry (first : Bool) (f : Fragment) (index : Nat) (next : Rendering Unit)
    (s : Scope) (w : Fragment) :
    (if !first then do
        write ", "
        put f
        write " AS "
        write (Scope.outputName index)
        next
      else do
        put f
        write " AS "
        write (Scope.outputName index)
        next).run ⟨s, w⟩ =
      next.run ⟨s, w ++ ((if first then [] else [.text ", "]) ++ namedPieces f index)⟩ := by
  cases first <;> simp [write, run_bind, run_put, namedPieces]

theorem Target.entries_cons {vis : List Column} {t : Target} {ts : List Target} :
    Target.entries vis (t :: ts) = (do
      let f ← t.expr.pieces vis
      let rest ← Target.entries vis ts
      return (t, f) :: rest) := by
  simp [Target.entries, List.mapM_cons]

theorem Target.kept_subset (seen : List Fragment) (es : List (Target × Fragment)) :
    Target.kept seen es ⊆ es := by
  induction es generalizing seen with
  | nil => exact fun _ h => h
  | cons e es ih =>
    rw [Target.kept]
    split
    · exact fun x hx => List.mem_cons_of_mem e (ih seen hx)
    · exact List.cons_subset_cons e (ih _)

theorem Target.entries_mem {vis : List Column} {targets : List Target} {es : List (Target × Fragment)}
    (h : Target.entries vis targets = .ok es) {e : Target × Fragment} (he : e ∈ es) :
    e.1 ∈ targets ∧ e.1.expr.pieces vis = .ok e.2 := by
  induction targets generalizing es with
  | nil => cases h; cases he
  | cons t ts ih =>
    rw [Target.entries_cons] at h
    obtain ⟨f, hf, h⟩ := bind_eq_ok.mp h
    obtain ⟨rest, hrest, h⟩ := bind_eq_ok.mp h
    cases h
    rcases List.mem_cons.mp he with rfl | he
    · exact ⟨List.mem_cons_self, hf⟩
    · exact (ih hrest he).imp_left (List.mem_cons_of_mem t)

/-- Writing a list adds the kept entries and claims their outputs, whatever was claimed before. -/
theorem Target.renderNamed_run {vis : List Column} {targets : List Target}
    {es : List (Target × Fragment)} (h : Target.entries vis targets = .ok es) (first : Bool)
    (outputs : List (Fragment × Output)) (w : Fragment) :
    (Target.renderNamed first targets).run ⟨⟨vis, outputs⟩, w⟩ =
      (.ok (), ⟨⟨vis, claimAll outputs es⟩,
        w ++ listPieces first outputs.length ((Target.kept (outputs.map Prod.fst) es).map Prod.snd)⟩) := by
  induction targets generalizing es first outputs w with
  | nil =>
    cases h
    simp [Target.renderNamed, Target.kept, listPieces, claimAll]
    rfl
  | cons t ts ih =>
    obtain ⟨field, e, type⟩ := t
    rw [Target.entries_cons] at h
    obtain ⟨f, hf, h⟩ := bind_eq_ok.mp h
    obtain ⟨rest, hrest, h⟩ := bind_eq_ok.mp h
    cases h
    have hadd := e.render_adds vis
    rw [hf] at hadd
    have hl := claim_texts f ⟨field, e, type⟩ outputs
    rw [Target.renderNamed, run_bind, run_capture hadd]
    simp only [run_bind, run_claim]
    by_cases hs : (outputs.map Prod.fst).any (·.same f)
    · rw [if_pos hs] at hl ⊢
      have hlen := congrArg List.length hl
      simp only [List.length_map] at hlen
      simp only [ih hrest, hl, hlen, Target.kept, hs, if_true]
      rfl
    · rw [if_neg hs] at hl ⊢
      have hlen := congrArg List.length hl
      simp only [List.length_map, List.length_append, List.length_singleton] at hlen
      rw [Target.kept, if_neg hs]
      simp only [run_entry, ih hrest, hl, hlen, listPieces_false, List.map_cons]
      rw [listPieces_cons]
      simp only [List.append_assoc]
      rfl

/-- A list fails where the first of its entries does. -/
theorem Target.renderNamed_error {vis : List Column} {targets : List Target} {x : Error}
    (h : Target.entries vis targets = .error x) (first : Bool) (outputs : List (Fragment × Output))
    (w : Fragment) : ((Target.renderNamed first targets).run ⟨⟨vis, outputs⟩, w⟩).1 = .error x := by
  induction targets generalizing first outputs w with
  | nil => cases h
  | cons t ts ih =>
    obtain ⟨field, e, type⟩ := t
    rw [Target.entries_cons] at h
    have hadd := e.render_adds vis
    rw [Target.renderNamed, run_bind]
    cases hf : e.pieces vis with
    | error y =>
      simp only [hf, error_bind, Except.error.injEq] at h
      rw [hf, h] at hadd
      rw [run_capture_error (Prod.ext (hadd outputs []) rfl)]
    | ok f =>
      rw [hf] at hadd
      have hrest : Target.entries vis ts = .error x := by
        cases hr : Target.entries vis ts with
        | error y => simpa [hf, hr] using h
        | ok es => simp [hf, hr] at h
      simp only [run_capture hadd, run_bind, run_claim]
      by_cases hs : (outputs.map Prod.fst).any (·.same f)
      · simp only [if_pos hs, ih hrest]
      · simp only [if_neg hs, run_entry, ih hrest]

end TypedSql.Sql

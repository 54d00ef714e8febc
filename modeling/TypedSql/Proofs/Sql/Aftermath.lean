import TypedSql.Proofs.Sql.Failing
import TypedSql.Proofs.Sql.Listing

/-! What rendering terms leaves behind: terms that are rendered leave their text and no trace in the scope,
a term that fails leaves the tables of the selects that it failed in. -/
namespace TypedSql.Sql
open Rendering

section Success

/-- A term that is rendered leaves the scope as it was, and its pieces behind what was written. -/
theorem Expr.run_ok {e : Expr} {s : Scope} {w : Fragment} {c : Canvas}
    (h : e.render.run ⟨s, w⟩ = (.ok (), c)) :
    ∃ f, Adds s.visible e.render (.ok f) ∧ c = ⟨s, w ++ f⟩ := by
  have hadds := e.render_adds s.visible
  cases hpieces : e.pieces s.visible with
  | error x =>
    have hfails := (hpieces ▸ hadds) s.outputs w
    rw [h] at hfails
    cases hfails
  | ok f =>
    have hf : Adds s.visible e.render (.ok f) := hpieces ▸ hadds
    exact ⟨f, hf, (Prod.ext_iff.mp ((hf s.outputs w).symm.trans h)).2.symm⟩

/-- Terms rendered one after the other leave the scope as it was, each with its own text. -/
theorem Expr.forM_run_ok {es : List Expr} {s : Scope} {w : Fragment} {c : Canvas}
    (h : (es.forM Expr.render).run ⟨s, w⟩ = (.ok (), c)) :
    ∃ fs, List.Forall₂ (fun e f => Adds s.visible e.render (.ok f)) es fs ∧ c = ⟨s, w ++ fs.flatten⟩ := by
  induction es generalizing w with
  | nil =>
    cases h
    exact ⟨[], .nil, by rw [List.flatten_nil, List.append_nil]⟩
  | cons e es ih =>
    replace h := (run_bind e.render (fun _ => es.forM Expr.render) ⟨s, w⟩).symm.trans h
    rcases hrun : e.render.run ⟨s, w⟩ with ⟨x | ⟨⟩, c'⟩
    · rw [hrun] at h
      cases h
    · obtain ⟨f, hf, rfl⟩ := run_ok hrun
      rw [hrun] at h
      obtain ⟨fs, hfs, rfl⟩ := ih h
      exact ⟨f :: fs, .cons hf hfs, by rw [List.append_assoc, List.flatten_cons]⟩

/-- Terms that are rendered leave the scope as it was. So each of them has the text that it has alone, and
so has every term that is rendered after them. -/
theorem Expr.renderings_restore {es : List Expr} {s : Scope} {w : Fragment} {c : Canvas}
    (h : (es.forM Expr.render).run ⟨s, w⟩ = (.ok (), c)) :
    c.scope = s ∧
      (∃ fs, List.Forall₂ (fun e f => (capture e.render).run ⟨s, w⟩ = (.ok f, ⟨s, w⟩)) es fs ∧
        c.written = w ++ fs.flatten) ∧
      ∀ later : Expr, ((capture later.render).run c).1 = ((capture later.render).run ⟨s, w⟩).1 := by
  obtain ⟨fs, hfs, rfl⟩ := forM_run_ok h
  exact ⟨rfl, ⟨fs, hfs.imp fun e f hf => run_capture hf _ w, rfl⟩, fun later => rfl⟩

/-- A table that is open already is entered again by a select within a term, under two names; once the
term is rendered, its column stands alone as before. -/
theorem Expr.renderings_restore_pages :
    let pages : Table := .ofColumns "pages" [("id", limitType)]
    let id : Expr := .column ⟨"pages", "id", limitType⟩
    let inner : Select := ⟨pages, [pages.aliased "other"], [⟨"id", id, limitType⟩], [], [], none, none⟩
    let s : Scope := Scope.empty.enter pages
    ∃ c : Canvas, ([.existence inner, id].forM Expr.render).run ⟨s, []⟩ = (.ok (), c) ∧
      c.written.sql = "EXISTS (SELECT pages.id FROM pages, pages AS other)id" ∧ c.scope = s ∧
      ∀ later : Expr, ((capture later.render).run c).1 = ((capture later.render).run ⟨s, []⟩).1 := by
  intro pages id inner s
  have hsql : Fragment.sql (([.existence inner, id].forM Expr.render).run ⟨s, []⟩).2.written =
      "EXISTS (SELECT pages.id FROM pages, pages AS other)id" := by
    decide +kernel +revert
  obtain ⟨c, hc⟩ : ∃ c, ([.existence inner, id].forM Expr.render).run ⟨s, []⟩ = (.ok (), c) := ⟨_, rfl⟩
  rw [hc] at hsql
  obtain ⟨hscope, -, hlater⟩ := Expr.renderings_restore hc
  exact ⟨c, hc, hsql, hscope, hlater⟩

end Success

section Failure

variable {e : Expr} {s : Scope} {w : Fragment} {x : Error} {c : Canvas}

/-- A term that fails leaves the outputs as they were, and the tables in sight that it broke off within.
They change what is in sight unless they have no columns. Leaving them, the last first, brings back what
was in sight; a term without selects leaves everything as it was. -/
theorem Expr.failure_leaves_open (h : (capture e.render).run ⟨s, w⟩ = (.error x, c)) :
    ∃ tables, (∀ others, e.BreaksOff others ↔ others = tables) ∧
      c = ⟨tables.foldl Scope.enter s, w⟩ ∧ c.scope.outputs = s.outputs ∧
      (c.scope = s ↔ ∀ t ∈ tables, t.columns = []) ∧
      tables.reverse.foldl Scope.leave c.scope = s ∧
      ((∀ part : Expr, part.Occurs e → part.opens = []) → c = ⟨s, w⟩) := by
  obtain ⟨vis, outputs⟩ := s
  have hwf : ¬ e.WellFormed := by
    intro hwf
    obtain ⟨f, hf⟩ := hwf.adds vis
    have hruns := run_capture hf outputs w
    rw [h] at hruns
    cases hruns
  obtain ⟨tables, htables⟩ := BreaksOff.of_not_wellFormed e hwf
  obtain ⟨y, w', hrun⟩ := htables.fails vis outputs []
  obtain rfl : c = ⟨tables.foldl Scope.enter ⟨vis, outputs⟩, w⟩ := by
    rw [run_capture_error hrun w] at h
    rw [Scope.enter_all]
    exact (Prod.ext_iff.mp h).2.symm
  refine ⟨tables, ?_, rfl, ?_, ?_, Scope.leave_all tables _, ?_⟩
  · exact fun others => ⟨fun hothers => hothers.unique htables, fun hothers => hothers ▸ htables⟩
  · rw [Scope.enter_all]
  · rw [Scope.enter_all]
    simp [inSight]
  · intro hopens
    rw [htables.outside hopens]
    rfl

/-- A value without a form in its type, in a select within a select: both tables stay in sight. -/
theorem Expr.failure_leaves_open_hits :
    let pages : Table := .ofColumns "pages" [("id", limitType)]
    let hits : Table := .ofColumns "hits" [("id", limitType)]
    let notes : Table := .ofColumns "notes" [("id", limitType)]
    let ids (t : Table) (filter : Expr) : Select :=
      ⟨t, [], [⟨"id", .column ⟨t.sqlName, "id", limitType⟩, limitType⟩], [filter], [], none, none⟩
    let e : Expr := .existence (ids hits (.subquery (ids notes (.param (.scalar (.text "x")) limitType))))
    let s : Scope := Scope.empty.enter pages
    ∃ (x : Error) (c : Canvas), (capture e.render).run ⟨s, []⟩ = (.error x, c) ∧
      e.BreaksOff [hits, notes] ∧ c.scope = (s.enter hits).enter notes ∧ c.scope ≠ s ∧
      (c.scope.leave notes).leave hits = s := by
  intro pages hits notes ids e s
  obtain ⟨x, c, hrun⟩ : ∃ x c, (capture e.render).run ⟨s, []⟩ = (.error x, c) := ⟨_, _, rfl⟩
  have hcolumn (c : Column) : (Expr.column c).WellFormed := wellFormed_iff.mpr ⟨trivial, nofun⟩
  have hcomplete (t : Table) (filter : Expr) : (ids t filter).Admissible := ⟨List.cons_ne_nil _ _, nofun⟩
  have hvalue : ¬ Encodes limitType (.scalar (.text "x")) := by
    rintro ⟨w, hw⟩
    cases hw
  have hbreaks : e.BreaksOff [hits, notes] :=
    .inside (not_not.mpr (hcomplete _ _)) (.past (hcolumn _) .here)
      (.inside (not_not.mpr (hcomplete _ _)) (.past (hcolumn _) .here) (.behind nofun hvalue))
  obtain ⟨tables, hplace, rfl, -, hsame, hleft, -⟩ := Expr.failure_leaves_open hrun
  obtain rfl := (hplace _).mp hbreaks
  refine ⟨x, _, hrun, hbreaks, rfl, fun h => ?_, hleft⟩
  exact List.cons_ne_nil _ _ (hsame.mp h hits List.mem_cons_self)

/-- A failed term is not undone: the column of an open table, bare before, is qualified afterwards. -/
theorem Expr.failure_not_undone :
    let pages : Table := .ofColumns "pages" [("id", limitType)]
    let hits : Table := .ofColumns "hits" [("id", limitType)]
    let id : Expr := .column ⟨"pages", "id", limitType⟩
    let hit : Expr := .column ⟨"hits", "id", limitType⟩
    let e : Expr := .existence ⟨hits, [], [⟨"id", hit, limitType⟩],
      [.binary .eq hit (.param (.scalar (.text "x")) limitType)], [], none, none⟩
    let s : Scope := Scope.empty.enter pages
    ∃ (x : Error) (c : Canvas), (capture e.render).run ⟨s, []⟩ = (.error x, c) ∧ c.scope ≠ s ∧
      ((capture id.render).run ⟨s, []⟩).1 = .ok [.name "id"] ∧
      ((capture id.render).run c).1 = .ok [.name "pages", .text ".", .name "id"] := by
  intro pages hits id hit e s
  refine ⟨_, _, rfl, fun h => ?_, rfl, rfl⟩
  have hlength := congrArg (fun s => s.visible.length) h
  exact absurd hlength (by decide)

end Failure

end TypedSql.Sql

import TypedSql.Proofs.Sql.Success
import TypedSql.Proofs.Sql.Writing

/-! Where the writing of a term that is not well formed breaks off, and what is in sight then. The tables of
a select are entered before its clauses and left behind them; an error passes by the steps that leave them. -/
namespace TypedSql.Sql
open Rendering

namespace Expr

/-- A well-formed term adds its text, whatever is in sight. -/
theorem WellFormed.adds {e : Expr} (h : e.WellFormed) (vis : List Column) :
    ∃ f, Adds vis e.render (.ok f) := by
  obtain ⟨f, hf⟩ := (e.pieces_succeeds vis).mpr h
  exact ⟨f, hf ▸ e.render_adds vis⟩

/-- The tables that a term brings into sight of the terms below it. -/
def opens : Expr → List Table
  | subquery s | existence s => s.table :: s.joins
  | _ => []

/-- A term is refused before anything of it is written: there is no type for its list, or its select is
incomplete. -/
def Refused : Expr → Prop
  | within _ _ element => element.arrayOf? = none
  | subquery s | existence s => ¬ s.Admissible
  | _ => False

/-- A term is reached when some terms are written in their order: those before it can be written. -/
inductive Reached (part : Expr) : List Expr → Prop
  | here {es : List Expr} : Reached part (part :: es)
  | past {e : Expr} {es : List Expr} : e.WellFormed → Reached part es → Reached part (e :: es)

namespace Reached

variable {part part' : Expr} {es es' : List Expr}

theorem mem (h : Reached part es) : part ∈ es := by
  induction h with
  | here => exact List.mem_cons_self
  | past _ _ ih => exact List.mem_cons_of_mem _ ih

/-- Some term is the first that cannot be written. -/
theorem first (h : ¬ ∀ e ∈ es, e.WellFormed) : ∃ part, Reached part es ∧ ¬ part.WellFormed := by
  induction es with
  | nil => exact absurd nofun h
  | cons e es ih =>
    by_cases he : e.WellFormed
    · obtain ⟨part, hreached, hpart⟩ := ih fun hes => h (List.forall_mem_cons.mpr ⟨he, hes⟩)
      exact ⟨part, .past he hreached, hpart⟩
    · exact ⟨e, .here, he⟩

/-- None is reached behind a term that cannot be written. -/
theorem unique (h : Reached part es) (h' : Reached part' es) (hpart : ¬ part.WellFormed)
    (hpart' : ¬ part'.WellFormed) : part = part' := by
  induction h with
  | here =>
    cases h' with
    | here => rfl
    | past hwf => exact absurd hwf hpart
  | past hwf _ ih =>
    cases h' with
    | here => exact absurd hwf hpart'
    | past _ h' => exact ih h'

/-- Of two lists of terms, the first is written before a term of the second is reached. -/
theorem of_append (h : Reached part (es ++ es')) :
    Reached part es ∨ (∀ e ∈ es, e.WellFormed) ∧ Reached part es' := by
  induction es with
  | nil => exact .inr ⟨nofun, h⟩
  | cons e es ih =>
    cases h with
    | here => exact .inl .here
    | past he h =>
      refine (ih h).imp (.past he) ?_
      rintro ⟨hes, hes'⟩
      exact ⟨List.forall_mem_cons.mpr ⟨he, hes⟩, hes'⟩

end Reached

/-- Writing a term breaks off within the selects over some tables, those of outer selects first: before
the terms below it, within the first of them that cannot be written, or behind them all. -/
inductive BreaksOff : Expr → List Table → Prop
  | refused {e : Expr} : e.Refused → BreaksOff e []
  | inside {e part : Expr} {tables : List Table} : ¬ e.Refused → Reached part e.children →
      BreaksOff part tables → BreaksOff e (e.opens ++ tables)
  | behind {e : Expr} : (∀ part ∈ e.children, part.WellFormed) → ¬ e.Admissible → BreaksOff e []

theorem Refused.not_admissible {e : Expr} (h : e.Refused) : ¬ e.Admissible := by
  cases e with
  | within e values element =>
    rintro ⟨array, harray, -⟩
    have hnone : element.arrayOf? = none := h
    rw [hnone] at harray
    cases harray
  | subquery s => exact h
  | existence s => exact h
  | _ => exact h.elim

namespace BreaksOff

variable {e : Expr} {tables tables' : List Table}

theorem not_wellFormed (h : e.BreaksOff tables) : ¬ e.WellFormed := by
  induction h with
  | refused hrefused => exact fun hwf => hrefused.not_admissible (wellFormed_iff.mp hwf).1
  | inside _ hreached _ ih => exact fun hwf => ih ((wellFormed_iff.mp hwf).2 _ hreached.mem)
  | behind _ hself => exact fun hwf => hself (wellFormed_iff.mp hwf).1

/-- A term that cannot be written breaks off somewhere. -/
theorem of_not_wellFormed (e : Expr) (h : ¬ e.WellFormed) : ∃ tables, e.BreaksOff tables := by
  induction e using children_induction with
  | step e ih =>
    by_cases hrefused : e.Refused
    · exact ⟨[], .refused hrefused⟩
    · by_cases hchildren : ∀ part ∈ e.children, part.WellFormed
      · exact ⟨[], .behind hchildren fun hself => h (wellFormed_iff.mpr ⟨hself, hchildren⟩)⟩
      · obtain ⟨part, hreached, hpart⟩ := Reached.first hchildren
        obtain ⟨tables, htables⟩ := ih part hreached.mem hpart
        exact ⟨e.opens ++ tables, .inside hrefused hreached htables⟩

/-- There is one place where a term breaks off. -/
theorem unique (h : e.BreaksOff tables) (h' : e.BreaksOff tables') : tables = tables' := by
  induction h generalizing tables' with
  | refused hrefused =>
    cases h' with
    | refused => rfl
    | inside hnot => exact absurd hrefused hnot
    | behind => rfl
  | inside hnot hreached hpart ih =>
    cases h' with
    | refused hrefused => exact absurd hrefused hnot
    | inside _ hreached' hpart' =>
      obtain rfl := hreached.unique hreached' hpart.not_wellFormed hpart'.not_wellFormed
      rw [ih hpart']
    | behind hchildren => exact absurd (hchildren _ hreached.mem) hpart.not_wellFormed
  | behind hchildren =>
    cases h' with
    | refused => rfl
    | inside _ hreached hpart => exact absurd (hchildren _ hreached.mem) hpart.not_wellFormed
    | behind => rfl

/-- A term without selects breaks off outside of all selects. -/
theorem outside (h : e.BreaksOff tables) (hopens : ∀ part : Expr, part.Occurs e → part.opens = []) :
    tables = [] := by
  induction h with
  | refused | behind => rfl
  | inside _ hreached _ ih =>
    rw [hopens _ .self, ih fun inner hinner => hopens inner (.inside hreached.mem hinner)]
    rfl

end BreaksOff

end Expr

/-- A step fails, and the tables it entered and did not leave stay in sight. -/
def FailsWithin (vis : List Column) (step : Rendering Unit) (tables : List Table) : Prop :=
  ∀ outputs w, ∃ x w', step.run ⟨⟨vis, outputs⟩, w⟩ = (.error x, ⟨⟨inSight tables vis, outputs⟩, w'⟩)

namespace FailsWithin

variable {vis : List Column} {a b : Rendering Unit} {tables : List Table}

theorem fail (x : Error) : FailsWithin vis (throw x) [] := fun _ w => ⟨x, w, rfl⟩

theorem first (ha : FailsWithin vis a tables) : FailsWithin vis (do a; b) tables := by
  intro outputs w
  obtain ⟨x, w', hrun⟩ := ha outputs w
  exact ⟨x, w', by rw [run_bind, hrun]⟩

theorem after {f : Fragment} (ha : Adds vis a (.ok f)) (hb : FailsWithin vis b tables) :
    FailsWithin vis (do a; b) tables := by
  intro outputs w
  rw [run_bind, ha]
  exact hb outputs (w ++ f)

theorem bindValue {type : TypeRef} {v : Value} (h : ¬ Encodes type v) :
    FailsWithin vis (Rendering.bind type v) [] := by
  unfold Rendering.bind
  cases hencode : type.encode v with
  | ok w => exact absurd ⟨w, hencode⟩ h
  | error x => exact fail x

theorem parenthesized (wrap : Bool) (ha : FailsWithin vis a tables) :
    FailsWithin vis (parenthesized wrap a) tables := by
  cases wrap with
  | false => exact ha
  | true => exact after (.write "(") ha.first

theorem opened {t : Table} {ts : List Table} (h : FailsWithin (inSight (t :: ts) vis) a tables) :
    FailsWithin vis (opened t ts a) (t :: ts ++ tables) := by
  intro outputs w
  obtain ⟨x, w', hrun⟩ := h outputs w
  exact ⟨x, w', by rw [run_opened_error hrun, inSight_append]⟩

end FailsWithin

/-- A step writes some terms in their order, and has nothing else that could fail: it succeeds if they are
well formed, and fails as the first of them does that is not. -/
structure Spells (vis : List Column) (step : Rendering Unit) (es : List Expr) : Prop where
  whole : (∀ e ∈ es, e.WellFormed) → ∃ f, Adds vis step (.ok f)
  broken : ∀ {part tables}, Expr.Reached part es → FailsWithin vis part.render tables →
    FailsWithin vis step tables

namespace Spells

variable {vis : List Column} {a b : Rendering Unit} {es es' : List Expr}

theorem congr (h : Spells vis a es) (ha : a = b) (hes : es = es') : Spells vis b es' := ha ▸ hes ▸ h

theorem text {f : Fragment} (h : Adds vis a (.ok f)) : Spells vis a [] := ⟨fun _ => ⟨f, h⟩, nofun⟩

theorem term (e : Expr) : Spells vis e.render [e] where
  whole h := (h e List.mem_cons_self).adds vis
  broken hreached hpart := by
    obtain rfl := List.mem_singleton.mp hreached.mem
    exact hpart

theorem bind (ha : Spells vis a es) (hb : Spells vis b es') : Spells vis (do a; b) (es ++ es') where
  whole h := by
    rw [List.forall_mem_append] at h
    obtain ⟨f, hf⟩ := ha.whole h.1
    obtain ⟨g, hg⟩ := hb.whole h.2
    exact ⟨f ++ g, hf.bind hg⟩
  broken hreached hpart := by
    -- the first step fails, or it writes all its terms and the second fails
    obtain hreached | ⟨hes, hreached⟩ := hreached.of_append
    · exact (ha.broken hreached hpart).first
    · obtain ⟨f, hf⟩ := ha.whole hes
      exact .after hf (hb.broken hreached hpart)

theorem parenthesized (wrap : Bool) (h : Spells vis a es) : Spells vis (parenthesized wrap a) es := by
  cases wrap with
  | false => exact h
  | true =>
    exact ((text (.write "(")).bind (h.bind (text (.write ")")))).congr rfl (by simp)

theorem separated {α : Type} (separator : String) {step : α → Rendering Unit} {term : α → Expr}
    {items : List α} (h : ∀ i ∈ items, Spells vis (step i) [term i]) :
    Spells vis (separated separator step items) (items.map term) := by
  induction items with
  | nil => exact text .skip
  | cons i rest ih =>
    obtain ⟨hi, hrest⟩ := List.forall_mem_cons.mp h
    cases rest with
    | nil => exact hi
    | cons j rest => exact (hi.bind ((text (.write separator)).bind (ih hrest))).congr rfl rfl

end Spells

section Clauses

variable {vis : List Column}

private theorem renderFilters_spells (filters : List Expr) : Spells vis (renderFilters filters) filters := by
  have hs : Spells vis (separated " AND " Expr.renderConjunct filters) (filters.map id) :=
    .separated " AND " fun e _ => (Spells.term e).parenthesized _
  cases filters with
  | nil => exact .text .skip
  | cons e es =>
    exact ((Spells.text (.write " WHERE ")).bind hs).congr
      (by simp [renderFilters, Expr.renderConjunction_eq]) (by simp)

private theorem renderOrder_spells (sorting : List SortTerm) :
    Spells vis (renderOrder sorting) (sorting.map SortTerm.expr) := by
  have hs : Spells vis (separated ", " SortTerm.render sorting) (sorting.map SortTerm.expr) := by
    refine .separated ", " ?_
    rintro ⟨e, order⟩ -
    cases order with
    | ascending => exact (Spells.term e).bind (.text .skip)
    | descending => exact (Spells.term e).bind (.text (.write " DESC"))
  cases sorting with
  | nil => exact .text .skip
  | cons t ts => exact ((Spells.text (.write " ORDER BY ")).bind hs).congr (by simp [renderOrder]) rfl

/-- What a nested select writes with its tables in sight are the terms of its clauses; its limit has a form
in any case. -/
private theorem Select.renderBody_spells (s : Select) : Spells vis (s.renderBody .nested) s.terms := by
  have htargets : Spells vis (Target.renderList .nested s.targets) (s.targets.map Target.expr) :=
    .separated ", " fun t _ => .term t.expr
  have htables : Spells vis (separated ", " Table.render (s.table :: s.joins)) [] :=
    .text ((Adds.separated ", " fun t _ => t.render_adds vis).congr rfl
      (separatedPieces_given ", " Table.pieces (s.table :: s.joins)))
  have hlock : Spells vis (renderLock s.lock) [] := by
    cases s.lock with
    | none => exact .text .skip
    | some l => exact .text (.write l.text)
  have hlimit : Spells vis (renderLimit s.limit) [] := by
    cases s.limit with
    | none => exact .text .skip
    | some n => exact (Spells.text (.write " LIMIT ")).bind (.text (Adds.bindValue _ _))
  have h := (Spells.text (.write "SELECT ")).bind (htargets.bind ((Spells.text (.write " FROM ")).bind
    (htables.bind ((renderFilters_spells s.filters).bind
      ((renderOrder_spells s.sorting).bind (hlock.bind hlimit))))))
  exact h.congr rfl (by simp [Select.terms])

end Clauses

namespace Expr

variable {vis : List Column} {e : Expr}

/-- A select that is incomplete is refused before its tables are entered. -/
private theorem select_refused {s : Select} (hs : ¬ s.Admissible) : FailsWithin vis (s.render .nested) [] := by
  rw [s.render_eq]
  cases hcheck : Select.check s.targets s.limit with
  | ok u => exact absurd (Select.check_succeeds.mp ⟨u, hcheck⟩) hs
  | error x => exact .fail x

/-- A complete select fails as the first of its terms does that is not well formed, within its tables. -/
private theorem select_fails {s : Select} {part : Expr} {tables : List Table} (hs : s.Admissible)
    (hreached : Reached part s.terms)
    (hpart : FailsWithin (inSight (s.table :: s.joins) vis) part.render tables) :
    FailsWithin vis (s.render .nested) (s.table :: s.joins ++ tables) := by
  obtain ⟨u, hu⟩ := Select.check_succeeds.mpr hs
  rw [s.render_eq, hu]
  exact (s.renderBody_spells.broken hreached hpart).opened

private theorem fails_before (h : e.Refused) : FailsWithin vis e.render [] := by
  cases e with
  | within e values element =>
    have hnone : element.arrayOf? = none := h
    rw [render, hnone]
    exact .fail _
  | subquery s =>
    rw [render]
    exact .after (.write "(") (select_refused h).first
  | existence s =>
    rw [render]
    exact .after (.write "EXISTS (") (select_refused h).first
  | _ => exact h.elim

private theorem fails_inside {part : Expr} {tables : List Table} (hnot : ¬ e.Refused)
    (hreached : Reached part e.children)
    (hpart : FailsWithin (inSight e.opens vis) part.render tables) :
    FailsWithin vis e.render (e.opens ++ tables) := by
  -- only selects have tables to enter; the other terms with parts write these in their order
  cases e with
  | column | param | default | bool => cases hreached
  | call function args =>
    have hargs : Spells vis (Expr.renderAll args) (args.map id) := by
      rw [renderAll_eq]
      exact .separated ", " fun e _ => .term e
    have h : Spells vis (call function args).render args := by
      rw [render]
      exact ((Spells.text (.writeFunction function)).bind ((Spells.text (.write "(")).bind
        (hargs.bind (.text (.write ")"))))).congr rfl (by simp)
    exact h.broken hreached hpart
  | binary op left right =>
    have h : Spells vis (binary op left right).render [left, right] := by
      rw [render]
      exact ((Spells.term left).parenthesized _).bind ((Spells.text (.write " ")).bind
        ((Spells.text (.write op.text)).bind ((Spells.text (.write " ")).bind
          ((Spells.term right).parenthesized _))))
    exact h.broken hreached hpart
  | not e =>
    have h : Spells vis (Expr.not e).render [e] := by
      rw [render]
      exact (Spells.text (.write "NOT ")).bind ((Spells.term e).parenthesized _)
    exact h.broken hreached hpart
  | nullTest e negated =>
    have h : Spells vis (nullTest e negated).render [e] := by
      rw [render]
      exact ((Spells.term e).parenthesized _).bind (.text (.write _))
    exact h.broken hreached hpart
  | within e values element =>
    obtain rfl := List.mem_singleton.mp hreached.mem
    obtain ⟨array, harray⟩ := Option.ne_none_iff_exists'.mp hnot
    rw [render, harray]
    exact (FailsWithin.parenthesized _ hpart).first
  | subquery s =>
    rw [render]
    exact .after (.write "(") (select_fails (not_not.mp hnot) hreached hpart).first
  | existence s =>
    rw [render]
    exact .after (.write "EXISTS (") (select_fails (not_not.mp hnot) hreached hpart).first

private theorem fails_behind (hnot : ¬ e.Refused) (hchildren : ∀ part ∈ e.children, part.WellFormed)
    (hself : ¬ e.Admissible) : FailsWithin vis e.render [] := by
  cases e with
  | param v type =>
    rw [render]
    exact .bindValue hself
  | within e values element =>
    obtain ⟨array, harray⟩ := Option.ne_none_iff_exists'.mp hnot
    have hencodes : ¬ Encodes array (.array values) := fun h => hself ⟨array, harray, h⟩
    have hterm : Spells vis (Rendering.parenthesized _ e.render) [e] :=
      (Spells.term e).parenthesized (e.needsParentheses comparisonPrecedence fun _ => false)
    obtain ⟨f, hf⟩ := hterm.whole hchildren
    rw [render, harray]
    exact .after hf (.after (.write " = ANY(") (FailsWithin.bindValue hencodes).first)
  | subquery s => exact absurd hself hnot
  | existence s => exact absurd hself hnot
  | _ => exact absurd trivial hself

/-- Where a term breaks off, its rendering fails, and the tables around that place stay in sight. -/
theorem BreaksOff.fails {tables : List Table} (h : e.BreaksOff tables) (vis : List Column) :
    FailsWithin vis e.render tables := by
  -- more is in sight with each select on the way down, so the columns vary in the induction
  induction h generalizing vis with
  | refused h => exact fails_before h
  | inside hnot hreached _ ih => exact fails_inside hnot hreached (ih _)
  | @behind e hchildren hself =>
    by_cases hrefused : e.Refused
    · exact fails_before hrefused
    · exact fails_behind hrefused hchildren hself

end Expr

end TypedSql.Sql

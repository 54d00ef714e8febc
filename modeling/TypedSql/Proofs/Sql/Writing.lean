import TypedSql.Proofs.Outcome
import TypedSql.Proofs.Sql.Pieces

/-! Rendering adds exactly the pieces of a term, and a rendering that succeeds leaves the scope as it
found it. -/
namespace TypedSql.Sql
open Rendering

/-- Whatever was written before and whatever outputs are claimed, a step adds the given pieces and
changes nothing else, or fails with the given error. -/
def Adds (vis : List Column) (step : Rendering Unit) : Except Error Fragment → Prop
  | .ok f => ∀ outputs w, step.run ⟨⟨vis, outputs⟩, w⟩ = (.ok (), ⟨⟨vis, outputs⟩, w ++ f⟩)
  | .error x => ∀ outputs w, (step.run ⟨⟨vis, outputs⟩, w⟩).1 = .error x

@[simp] theorem lift_ok_bind {α β : Type} (a : α) (b : α → Rendering β) :
    (liftM (Except.ok a : Except Error α) >>= b) = b a := rfl

@[simp] theorem lift_error_bind {α β : Type} (x : Error) (b : α → Rendering β) :
    (liftM (Except.error x : Except Error α) >>= b) = throw x := rfl

namespace Adds

variable {vis : List Column} {a b : Rendering Unit} {r r' : Except Error Fragment}

theorem congr (h : Adds vis a r) (ha : a = b) (hr : r = r') : Adds vis b r' := ha ▸ hr ▸ h

theorem bind (ha : Adds vis a r) (hb : Adds vis b r') :
    Adds vis (do a; b) (do return (← r) ++ (← r')) := by
  cases r with
  | error x =>
    intro outputs w
    have h := ha outputs w
    rw [run_bind]
    rcases hr : a.run ⟨⟨vis, outputs⟩, w⟩ with ⟨y | y, c'⟩
    · simp only [hr] at h ⊢; exact h
    · simp [hr] at h
  | ok f =>
    cases r' with
    | error x => intro outputs w; rw [run_bind, ha]; exact hb outputs (w ++ f)
    | ok g =>
      intro outputs w
      rw [run_bind, ha]
      exact (hb outputs (w ++ f)).trans (by rw [List.append_assoc])

theorem skip : Adds vis (pure ()) (.ok []) := by
  intro outputs w
  rw [List.append_nil]; rfl

theorem fail (x : Error) : Adds vis (throw x) (.error x) := fun _ _ => rfl

theorem lift (x : Except Error Unit) : Adds vis (liftM x) ((fun _ => []) <$> x) := by
  cases x with
  | ok u => exact skip
  | error y => exact fail y

theorem put (f : Fragment) : Adds vis (put f) (.ok f) := fun _ _ => rfl

theorem write (s : String) : Adds vis (write s) (.ok [.text s]) := put _

theorem writeName (s : String) : Adds vis (writeName s) (.ok [.name s]) := put _

theorem writeFunction (s : String) : Adds vis (writeFunction s) (.ok [.function s]) := put _

theorem bindValue (type : TypeRef) (v : Value) :
    Adds vis (Rendering.bind type v) (bindPieces type v) := by
  unfold Rendering.bind bindPieces
  cases type.encode v with
  | ok w => exact put _
  | error x => exact fun _ _ => rfl

theorem parenthesized (wrap : Bool) (h : Adds vis a r) :
    Adds vis (parenthesized wrap a) (wrapped wrap <$> r) := by
  cases wrap with
  | false => exact h.congr rfl (by cases r <;> rfl)
  | true =>
    exact ((write "(").bind (h.bind (write ")"))).congr rfl (by simp; rfl)

theorem separated {α : Type} (separator : String) {step : α → Rendering Unit}
    {pieces : α → Except Error Fragment} {items : List α}
    (h : ∀ i ∈ items, Adds vis (step i) (pieces i)) :
    Adds vis (separated separator step items) (separatedPieces separator (items.map pieces)) := by
  induction items with
  | nil => exact skip
  | cons i rest ih =>
    have hi := h i List.mem_cons_self
    have hrest := ih fun j hj => h j (List.mem_cons_of_mem i hj)
    cases rest with
    | nil => exact hi
    | cons j rest =>
      exact (hi.bind ((write separator).bind hrest)).congr rfl
        (by simp [separatedPieces])

end Adds

theorem Table.render_adds (vis : List Column) (t : Table) : Adds vis t.render (.ok t.pieces) := by
  obtain ⟨name, other | other, members⟩ := t
  · exact (Adds.writeName name).bind .skip
  · exact (Adds.writeName name).bind ((Adds.write " AS ").bind (.writeName other))

theorem Column.render_adds (vis : List Column) (c : Column) : Adds vis c.render (.ok (c.pieces vis)) := by
  intro outputs w
  have hget : (get : Rendering Canvas).run ⟨⟨vis, outputs⟩, w⟩ =
    (.ok ⟨⟨vis, outputs⟩, w⟩, ⟨⟨vis, outputs⟩, w⟩) := rfl
  unfold Column.render Column.pieces
  rw [run_bind, hget]
  by_cases h : (Scope.mk vis []).needsQualification c
  · have hq : (Scope.mk vis outputs).needsQualification c := h
    have ha : Adds vis _ _ := (Adds.writeName c.owner).bind ((Adds.write ".").bind (.writeName c.name))
    simpa [h, hq] using ha outputs w
  · have hq : ¬ (Scope.mk vis outputs).needsQualification c := h
    simpa [h, hq] using Adds.writeName c.name outputs w

/-! Lists of terms, conditions and entries are items with a text between them. -/

theorem Expr.renderAll_eq (es : List Expr) :
    Expr.renderAll es = separated ", " Expr.render es := by
  induction es with
  | nil => rfl
  | cons e es ih => cases es with
    | nil => rfl
    | cons e' es => simp [Expr.renderAll, ih, separated]

def Expr.renderConjunct (e : Expr) : Rendering Unit :=
  parenthesized (e.needsParentheses Operator.and.precedence (Operator.and.chains ·)) e.render

theorem Expr.renderConjunction_eq (es : List Expr) :
    Expr.renderConjunction es = separated " AND " Expr.renderConjunct es := by
  induction es with
  | nil => rfl
  | cons e es ih => cases es with
    | nil => rfl
    | cons e' es => simp [Expr.renderConjunction, ih, separated, Expr.renderConjunct]

theorem Target.renderNested_eq (ts : List Target) :
    Target.renderNested ts = separated ", " (fun t => t.expr.render) ts := by
  induction ts with
  | nil => rfl
  | cons t ts ih =>
    obtain ⟨_, _, _⟩ := t
    cases ts with
    | nil => rfl
    | cons t' ts => simp [Target.renderNested, ih, separated]

def SortTerm.render (t : SortTerm) : Rendering Unit := do
  t.expr.render
  if t.order = .descending then write " DESC"

theorem SortTerm.renderAll_eq (ts : List SortTerm) :
    SortTerm.renderAll ts = separated ", " SortTerm.render ts := by
  induction ts with
  | nil => rfl
  | cons t ts ih =>
    obtain ⟨_, order⟩ := t
    cases ts with
    | nil => rfl
    | cons t' ts =>
      cases order <;> simp [SortTerm.renderAll, ih, separated, SortTerm.render]

/-- The entries of a select, named at the outermost level. -/
def Target.renderList (level : Level) (targets : List Target) : Rendering Unit :=
  match level with
  | .outermost => Target.renderNamed true targets
  | .nested => separated ", " (fun t => t.expr.render) targets

def renderOrder (sorting : List SortTerm) : Rendering Unit :=
  if sorting.isEmpty then return
  else do
    write " ORDER BY "
    separated ", " SortTerm.render sorting

def renderLimit : Option Int64 → Rendering Unit
  | some n => do
    write " LIMIT "
    Rendering.bind limitType (.scalar (.int64 n))
  | none => return

def renderLock : Option Lock → Rendering Unit
  | some l => write l.text
  | none => return

/-- What a select writes while its tables are in sight. -/
def Select.renderBody (s : Select) (level : Level) : Rendering Unit := do
  write "SELECT "
  Target.renderList level s.targets
  write " FROM "
  separated ", " Table.render (s.table :: s.joins)
  renderFilters s.filters
  renderOrder s.sorting
  renderLock s.lock
  renderLimit s.limit

/-- A step between the entering and the leaving of some tables. -/
def opened (t : Table) (ts : List Table) (body : Rendering Unit) : Rendering Unit := do
  enter t
  ts.forM enter
  body
  ts.reverse.forM leave
  leave t

private theorem filters_then (filters : List Expr) (next : Rendering Unit) :
    (if filters = [] then next else do
        write " WHERE "
        Expr.renderConjunction filters
        next) = (do renderFilters filters; next) := by
  cases filters <;> simp [renderFilters]

private theorem order_then (sorting : List SortTerm) (next : Rendering Unit) :
    (if sorting = [] then next else do
        write " ORDER BY "
        SortTerm.renderAll sorting
        next) = (do renderOrder sorting; next) := by
  cases sorting <;> simp [renderOrder, SortTerm.renderAll_eq]

theorem Select.render_eq (s : Select) (level : Level) : s.render level = (do
    Select.check s.targets s.limit
    opened s.table s.joins (s.renderBody level)) := by
  obtain ⟨table, joins, targets, filters, sorting, lock, limit⟩ := s
  have hbody : opened table joins (renderBody ⟨table, joins, targets, filters, sorting, lock, limit⟩ level) =
      (do
        enter table
        joins.forM enter
        write "SELECT "
        Target.renderList level targets
        write " FROM "
        separated ", " Table.render (table :: joins)
        renderFilters filters
        renderOrder sorting
        renderLock lock
        renderLimit limit
        joins.reverse.forM leave
        leave table) := by
    simp [opened, renderBody]
  cases targets with
  | nil => rfl
  | cons t ts =>
    cases limit with
    | none =>
      cases level <;> cases lock <;>
        simp [Select.render, Select.check, hbody, filters_then, order_then, Target.renderList,
          Target.renderNested_eq, renderLock, renderLimit]
    | some n =>
      by_cases hn : n < 0
      · simp [Select.render, Select.check, hn]
      · cases level <;> cases lock <;>
          simp [Select.render, Select.check, hn, hbody, filters_then, order_then, Target.renderList,
            Target.renderNested_eq, renderLock, renderLimit]

private theorem run_enterAll (tables : List Table) (c : Canvas) :
    (tables.forM enter).run c = (.ok (), { c with scope := tables.foldl Scope.enter c.scope }) := by
  induction tables generalizing c with
  | nil => rfl
  | cons t ts ih => exact (run_bind _ _ c).trans (ih _)

private theorem run_leaveAll (tables : List Table) (c : Canvas) :
    (tables.forM leave).run c = (.ok (), { c with scope := tables.foldl Scope.leave c.scope }) := by
  induction tables generalizing c with
  | nil => rfl
  | cons t ts ih => exact (run_bind _ _ c).trans (ih _)

/-- A step that claims outputs within its tables claims them outside as well, and the tables are out of
sight again. -/
theorem run_opened {t : Table} {ts : List Table} {body : Rendering Unit} {vis : List Column}
    {outputs outputs' : List (Fragment × Output)} {w w' : Fragment}
    (h : body.run ⟨⟨inSight (t :: ts) vis, outputs⟩, w⟩ =
      (.ok (), ⟨⟨inSight (t :: ts) vis, outputs'⟩, w'⟩)) :
    (opened t ts body).run ⟨⟨vis, outputs⟩, w⟩ = (.ok (), ⟨⟨vis, outputs'⟩, w'⟩) := by
  have henter : (enter t).run ⟨⟨vis, outputs⟩, w⟩ = (.ok (), ⟨Scope.enter ⟨vis, outputs⟩ t, w⟩) := rfl
  have hall : ts.foldl Scope.enter (Scope.enter ⟨vis, outputs⟩ t) = ⟨inSight (t :: ts) vis, outputs⟩ :=
    Scope.enter_all (t :: ts) vis outputs
  have hleave (s : Scope) : (leave t).run ⟨s, w'⟩ = (.ok (), ⟨s.leave t, w'⟩) := rfl
  have hback := Scope.leave_all (t :: ts) ⟨vis, outputs'⟩
  rw [Scope.enter_all, List.reverse_cons, List.foldl_append] at hback
  simp only [opened, run_bind, henter, run_enterAll, hall, h, run_leaveAll, hleave]
  exact congrArg (fun s => ((.ok (), ⟨s, w'⟩) : Except Error Unit × Canvas)) hback

/-- A step that fails leaves the tables around it in sight. -/
theorem run_opened_error {t : Table} {ts : List Table} {body : Rendering Unit} {vis : List Column}
    {outputs : List (Fragment × Output)} {w : Fragment} {x : Error} {c : Canvas}
    (h : body.run ⟨⟨inSight (t :: ts) vis, outputs⟩, w⟩ = (.error x, c)) :
    (opened t ts body).run ⟨⟨vis, outputs⟩, w⟩ = (.error x, c) := by
  have henter : (enter t).run ⟨⟨vis, outputs⟩, w⟩ = (.ok (), ⟨Scope.enter ⟨vis, outputs⟩ t, w⟩) := rfl
  have hall : ts.foldl Scope.enter (Scope.enter ⟨vis, outputs⟩ t) = ⟨inSight (t :: ts) vis, outputs⟩ :=
    Scope.enter_all (t :: ts) vis outputs
  simp only [opened, run_bind, henter, run_enterAll, hall, h]

theorem Adds.opened {t : Table} {ts : List Table} {body : Rendering Unit} {vis : List Column}
    {r : Except Error Fragment} (h : Adds (inSight (t :: ts) vis) body r) :
    Adds vis (opened t ts body) r := by
  cases r with
  | ok f => exact fun outputs w => run_opened (h outputs w)
  | error x => exact fun outputs w => congrArg Prod.fst (run_opened_error (Prod.ext (h outputs w) rfl))

section Clauses

variable {vis : List Column}

theorem renderFilters_adds {filters : List Expr}
    (h : ∀ e ∈ filters, Adds vis e.render (e.pieces vis)) :
    Adds vis (renderFilters filters) (wherePieces (filters.map (Expr.conjunctPieces vis))) := by
  have hs : Adds vis (separated " AND " Expr.renderConjunct filters) _ :=
    .separated " AND " fun e he => (h e he).parenthesized _
  unfold renderFilters wherePieces
  cases filters with
  | nil => exact .skip
  | cons e es =>
    exact ((Adds.write " WHERE ").bind hs).congr (by simp [Expr.renderConjunction_eq])
      (by simp; rfl)

private theorem sortTerm_adds {t : SortTerm} (h : Adds vis t.expr.render (t.expr.pieces vis)) :
    Adds vis t.render (t.pieces vis) := by
  obtain ⟨e, order⟩ := t
  cases order with
  | ascending =>
    exact (h.bind .skip).congr rfl (by cases hr : e.pieces vis <;> simp [SortTerm.pieces, sortPieces, hr])
  | descending =>
    exact (h.bind (.write " DESC")).congr rfl
      (by cases hr : e.pieces vis <;> simp [SortTerm.pieces, sortPieces, hr])

private theorem renderOrder_adds {sorting : List SortTerm}
    (h : ∀ t ∈ sorting, Adds vis t.expr.render (t.expr.pieces vis)) :
    Adds vis (renderOrder sorting) (orderPieces (sorting.map (SortTerm.pieces vis))) := by
  have hs := Adds.separated ", " fun t ht => sortTerm_adds (h t ht)
  unfold renderOrder orderPieces
  cases sorting with
  | nil => exact .skip
  | cons t ts =>
    exact ((Adds.write " ORDER BY ").bind hs).congr (by simp) (by simp)

private theorem renderLock_adds (lock : Option Lock) :
    Adds vis (renderLock lock) (.ok (lockPieces lock)) := by
  cases lock with
  | none => exact .skip
  | some l => exact .write l.text

private theorem renderLimit_adds (limit : Option Int64) :
    Adds vis (renderLimit limit) (limitPieces limit) := by
  cases limit with
  | none => exact .skip
  | some n =>
    exact ((Adds.write " LIMIT ").bind (.bindValue limitType (.scalar (.int64 n)))).congr rfl
      (by simp [limitPieces])

private theorem renderTables_adds (tables : List Table) :
    Adds vis (do write " FROM "; separated ", " Table.render tables) (fromPieces tables) :=
  ((Adds.write " FROM ").bind (.separated ", " fun t (_ : t ∈ tables) => t.render_adds vis)).congr rfl
    (by simp [fromPieces])

/-- What follows the entries of a select. -/
def Select.renderClauses (s : Select) : Rendering Unit := do
  write " FROM "
  separated ", " Table.render (s.table :: s.joins)
  renderFilters s.filters
  renderOrder s.sorting
  renderLock s.lock
  renderLimit s.limit

theorem Select.renderClauses_adds (s : Select) (hs : s.Each fun e => Adds vis e.render (e.pieces vis)) :
    Adds vis s.renderClauses (s.clausePieces vis) := by
  have h := (renderTables_adds (s.table :: s.joins)).bind
    ((renderFilters_adds hs.filters).bind ((renderOrder_adds hs.sorting).bind
      ((renderLock_adds s.lock).bind (renderLimit_adds s.limit))))
  exact h.congr (by simp [renderClauses]) (by simp [clausePieces, Sql.clausePieces])

/-- A select within a term. -/
theorem Select.render_adds (s : Select) (hs : s.Each fun e => ∀ vis, Adds vis e.render (e.pieces vis)) :
    Adds vis (s.render .nested) (s.pieces vis) := by
  have hinner := hs.imp fun e he => he (inSight (s.table :: s.joins) vis)
  have hbody := (Adds.write "SELECT ").bind
    ((Adds.separated ", " hinner.targets).bind (s.renderClauses_adds hinner))
  have h := (Adds.lift (Select.check s.targets s.limit)).bind hbody.opened
  rw [s.render_eq]
  obtain ⟨table, joins, targets, filters, sorting, lock, limit⟩ := s
  exact h.congr (by simp [Select.renderBody, renderClauses, Target.renderList])
    (by simp [clausePieces, Select.pieces])

end Clauses

/-- Rendering a term adds its pieces, which depend on the columns in sight alone. -/
theorem Expr.render_adds (e : Expr) : ∀ vis, Adds vis e.render (e.pieces vis) := by
  induction e using Expr.induction with
  | column c => exact fun vis => c.render_adds vis
  | param v type => exact fun vis => .bindValue type v
  | default => exact fun vis => .write "DEFAULT"
  | bool b => exact fun vis => .write _
  | call function args ih =>
    intro vis
    have h := (Adds.writeFunction function).bind ((Adds.write "(").bind
      ((Adds.separated ", " fun e he => ih e he vis).bind (.write ")")))
    rw [Expr.render, Expr.renderAll_eq, Expr.pieces, Expr.each_eq]
    exact h.congr rfl (by simp)
  | binary op left right hl hr =>
    intro vis
    have h := ((hl vis).parenthesized (left.needsParentheses op.precedence op.chains)).bind
      ((Adds.write " ").bind ((Adds.write op.text).bind ((Adds.write " ").bind
        ((hr vis).parenthesized (right.needsParentheses op.precedence op.chains)))))
    rw [Expr.render, Expr.pieces]
    exact h.congr rfl (by simp [operandPieces])
  | not e ih =>
    intro vis
    have h := (Adds.write "NOT ").bind
      ((ih vis).parenthesized (e.needsParentheses negationPrecedence fun _ => false))
    rw [Expr.render, Expr.pieces]
    exact h.congr rfl (by simp [operandPieces])
  | nullTest e negated ih =>
    intro vis
    have h := ((ih vis).parenthesized (e.needsParentheses comparisonPrecedence fun _ => false)).bind
      (.write (if negated then " IS NOT NULL" else " IS NULL"))
    rw [Expr.render, Expr.pieces]
    exact h.congr rfl (by simp [operandPieces])
  | within e values element ih =>
    intro vis
    rw [Expr.render, Expr.pieces]
    cases element.arrayOf? with
    | none => exact .fail _
    | some array =>
      have h := ((ih vis).parenthesized (e.needsParentheses comparisonPrecedence fun _ => false)).bind
        ((Adds.write " = ANY(").bind ((Adds.bindValue array (.array values)).bind (.write ")")))
      exact h.congr rfl (by simp [operandPieces])
  | subquery s ih =>
    intro vis
    have h : Adds vis _ _ := (Adds.write "(").bind ((s.render_adds ih).bind (.write ")"))
    rw [Expr.render, Expr.pieces]
    exact h.congr rfl (by simp)
  | existence s ih =>
    intro vis
    have h : Adds vis _ _ := (Adds.write "EXISTS (").bind ((s.render_adds ih).bind (.write ")"))
    rw [Expr.render, Expr.pieces]
    exact h.congr rfl (by simp)

end TypedSql.Sql

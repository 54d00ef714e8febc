import TypedSql.Proofs.Sql.Listing

/-! Whole statements: the pieces each consists of and the outputs it claims. -/
namespace TypedSql.Sql
open Rendering

/-- Text written, and the outputs claimed on the way. -/
abbrev Listed := Fragment × List (Fragment × Output)

/-- A step on a scope without outputs adds a text and claims some outputs, or fails with an error. -/
def Yields (vis : List Column) (step : Rendering Unit) : Except Error Listed → Prop
  | .ok (f, outputs) => ∀ w, step.run ⟨⟨vis, []⟩, w⟩ = (.ok (), ⟨⟨vis, outputs⟩, w ++ f⟩)
  | .error x => ∀ w, (step.run ⟨⟨vis, []⟩, w⟩).1 = .error x

/-- Text in front of a list. -/
def Listed.behind (f : Fragment) (l : Listed) : Listed := (f ++ l.1, l.2)

/-- Text behind a list. -/
def Listed.before (l : Listed) (f : Fragment) : Listed := (l.1 ++ f, l.2)

def namesPieces (columns : List Column) : Except Error Fragment :=
  separatedPieces ", " (columns.map fun c => .ok [.name c.name])

theorem namesPieces_eq (columns : List Column) :
    namesPieces columns = .ok (joined ", " (columns.map fun c => [.name c.name])) :=
  separatedPieces_given ", " (fun c : Column => [.name c.name]) columns

def Assignment.pieces (vis : List Column) (a : Assignment) : Except Error Fragment :=
  (fun f => .name a.column.name :: .text " = " :: f) <$> a.expr.pieces vis

def assignmentsPieces (vis : List Column) (assignments : List Assignment) : Except Error Fragment :=
  separatedPieces ", " (assignments.map (Assignment.pieces vis))

def filtersPieces (vis : List Column) (filters : List Expr) : Except Error Fragment :=
  wherePieces (filters.map (Expr.conjunctPieces vis))

/-- The entries of an outermost list, each text once, with its outputs. -/
def Target.listed (vis : List Column) (targets : List Target) : Except Error Listed :=
  (fun es => (listPieces true 0 ((Target.kept [] es).map Prod.snd), claimAll [] es)) <$>
    Target.entries vis targets

def returningPieces (vis : List Column) (targets : List Target) : Except Error Listed :=
  if targets.isEmpty then .ok ([], [])
  else (Listed.behind [.text " RETURNING "]) <$> Target.listed vis targets

/-- A select at the outermost level. -/
def Select.listed (vis : List Column) (s : Select) : Except Error Listed := do
  Select.check s.targets s.limit
  let list ← Target.listed (inSight (s.table :: s.joins) vis) s.targets
  let clauses ← s.clausePieces (inSight (s.table :: s.joins) vis)
  return (list.before clauses).behind [.text "SELECT "]

theorem Select.listed_ok {vis : List Column} {s : Select} {l : Listed} (h : s.listed vis = .ok l) :
    s.targets ≠ [] ∧ ∃ list clauses, Target.listed (inSight (s.table :: s.joins) vis) s.targets = .ok list ∧
      s.clausePieces (inSight (s.table :: s.joins) vis) = .ok clauses ∧
      l = (list.before clauses).behind [.text "SELECT "] := by
  obtain ⟨_, hcheck, h⟩ := bind_eq_ok.mp h
  obtain ⟨list, hlist, h⟩ := bind_eq_ok.mp h
  obtain ⟨clauses, hclauses, h⟩ := bind_eq_ok.mp h
  cases h
  exact ⟨Select.ne_nil_of_check hcheck, list, clauses, hlist, hclauses, rfl⟩

def OnConflict.check (c : OnConflict) (t : Table) : Except Error Unit :=
  match c.action with
  | .nothing => .ok ()
  | .update assignments _ => do
    if c.target.isEmpty then .error (.statement .conflictWithoutTarget)
    if assignments.isEmpty then .error (.statement .conflictWithoutAssignment)
    checkOwned t .doUpdate (assignments.map Assignment.column)
    checkDistinct .doUpdate [] (assignments.map Assignment.column)

/-- The columns of a conflict clause, in parentheses if there are any. -/
def OnConflict.targetPieces (c : OnConflict) : Except Error Fragment :=
  if c.target.isEmpty then .ok []
  else (fun f => .text " (" :: f ++ [.text ")"]) <$> namesPieces c.target

/-- What happens to a row that is there; the proposed row is in sight of it. -/
def ConflictAction.pieces (vis : List Column) (t : Table) : ConflictAction → Except Error Fragment
  | .nothing => .ok [.text " DO NOTHING"]
  | .update assignments filters => do
    let f ← assignmentsPieces (inSight [t.excluded] vis) assignments
    let g ← filtersPieces (inSight [t.excluded] vis) filters
    return .text " DO UPDATE SET " :: f ++ g

def OnConflict.pieces (vis : List Column) (t : Table) (c : OnConflict) : Except Error Fragment := do
  checkOwned t .onConflict c.target
  let f ← c.targetPieces
  c.check t
  let g ← c.action.pieces vis t
  return .text " ON CONFLICT" :: f ++ g

/-- A conflict clause that is checked consists of its target and of what happens to a row. -/
theorem OnConflict.pieces_ok {vis : List Column} {t : Table} {c : OnConflict} {f : Fragment}
    (h : c.pieces vis t = .ok f) : c.check t = .ok () ∧ ∃ target action, c.targetPieces = .ok target ∧
      c.action.pieces vis t = .ok action ∧ f = .text " ON CONFLICT" :: target ++ action := by
  obtain ⟨_, -, h⟩ := bind_eq_ok.mp h
  obtain ⟨target, htarget, h⟩ := bind_eq_ok.mp h
  obtain ⟨_, hcheck, h⟩ := bind_eq_ok.mp h
  obtain ⟨action, haction, h⟩ := bind_eq_ok.mp h
  cases h
  exact ⟨hcheck, target, action, htarget, haction, rfl⟩

def rowPieces (vis : List Column) (columns : List Column) (row : List Assignment) :
    Except Error Fragment :=
  (fun f => .text "(" :: f ++ [.text ")"]) <$> separatedPieces ", "
    (columns.map fun c => ((Assignment.find? row c).getD .default).pieces vis)

def conflictPieces (vis : List Column) (t : Table) : Option OnConflict → Except Error Fragment
  | some c => c.pieces vis t
  | none => .ok []

def Insert.check (i : Insert) : Except Error Unit := do
  if i.rows.isEmpty then .error (.statement .noRows)
  checkRows i.table i.rows
  if i.columns.isEmpty then .error (.statement .noColumns)

def Insert.listed (i : Insert) : Except Error Listed := do
  i.check
  let vis := inSight [i.table] []
  let names ← namesPieces i.columns
  let rows ← separatedPieces ", " (i.rows.map (rowPieces vis i.columns))
  let conflict ← conflictPieces vis i.table i.conflict
  let returning ← returningPieces vis i.returning
  return returning.behind (.text "INSERT INTO " :: i.table.pieces ++ .text "(" :: names ++
    .text ") VALUES " :: rows ++ conflict)

/-- An insert that is checked consists of the names of its columns, its rows, its conflict clause and what
it returns. -/
theorem Insert.listed_ok {i : Insert} {l : Listed} (h : i.listed = .ok l) :
    i.check = .ok () ∧ ∃ names rows conflict returning, namesPieces i.columns = .ok names ∧
      separatedPieces ", " (i.rows.map (rowPieces (inSight [i.table] []) i.columns)) = .ok rows ∧
      conflictPieces (inSight [i.table] []) i.table i.conflict = .ok conflict ∧
      returningPieces (inSight [i.table] []) i.returning = .ok returning ∧
      l = returning.behind (.text "INSERT INTO " :: i.table.pieces ++ .text "(" :: names ++
        .text ") VALUES " :: rows ++ conflict) := by
  obtain ⟨_, hcheck, h⟩ := bind_eq_ok.mp h
  obtain ⟨names, hnames, h⟩ := bind_eq_ok.mp h
  obtain ⟨rows, hrows, h⟩ := bind_eq_ok.mp h
  obtain ⟨conflict, hconflict, h⟩ := bind_eq_ok.mp h
  obtain ⟨returning, hreturning, h⟩ := bind_eq_ok.mp h
  cases h
  exact ⟨hcheck, names, rows, conflict, returning, hnames, hrows, hconflict, hreturning, rfl⟩

def Update.check (u : Update) : Except Error Unit := do
  if u.filters.isEmpty then .error (.statement .unfilteredUpdate)
  if u.assignments.isEmpty then .error (.statement .noAssignments)
  checkOwned u.table .update (u.assignments.map Assignment.column)
  checkDistinct .update [] (u.assignments.map Assignment.column)

/-- Further tables behind a word, if there are any. -/
def sourcesPieces (word : String) (sources : List Table) : Except Error Fragment :=
  if sources.isEmpty then .ok []
  else (.text word :: ·) <$> separatedPieces ", " (sources.map fun t => .ok t.pieces)

def Update.listed (u : Update) : Except Error Listed := do
  u.check
  let vis := inSight (u.table :: u.sources) []
  let assignments ← assignmentsPieces vis u.assignments
  let sources ← sourcesPieces " FROM " u.sources
  let filters ← filtersPieces vis u.filters
  let returning ← returningPieces vis u.returning
  return returning.behind
    (.text "UPDATE " :: u.table.pieces ++ .text " SET " :: assignments ++ sources ++ filters)

/-- An update that is checked consists of what it sets, its other tables, its condition and what it
returns. -/
theorem Update.listed_ok {u : Update} {l : Listed} (h : u.listed = .ok l) :
    u.check = .ok () ∧ ∃ assignments sources filters returning,
      assignmentsPieces (inSight (u.table :: u.sources) []) u.assignments = .ok assignments ∧
      sourcesPieces " FROM " u.sources = .ok sources ∧
      filtersPieces (inSight (u.table :: u.sources) []) u.filters = .ok filters ∧
      returningPieces (inSight (u.table :: u.sources) []) u.returning = .ok returning ∧
      l = returning.behind
        (.text "UPDATE " :: u.table.pieces ++ .text " SET " :: assignments ++ sources ++ filters) := by
  obtain ⟨_, hcheck, h⟩ := bind_eq_ok.mp h
  obtain ⟨assignments, hassignments, h⟩ := bind_eq_ok.mp h
  obtain ⟨sources, hsources, h⟩ := bind_eq_ok.mp h
  obtain ⟨filters, hfilters, h⟩ := bind_eq_ok.mp h
  obtain ⟨returning, hreturning, h⟩ := bind_eq_ok.mp h
  cases h
  exact ⟨hcheck, assignments, sources, filters, returning, hassignments, hsources, hfilters, hreturning, rfl⟩

def Delete.check (d : Delete) : Except Error Unit :=
  if d.filters.isEmpty then .error (.statement .unfilteredDelete) else .ok ()

def Delete.listed (d : Delete) : Except Error Listed := do
  d.check
  let vis := inSight (d.table :: d.sources) []
  let sources ← sourcesPieces " USING " d.sources
  let filters ← filtersPieces vis d.filters
  let returning ← returningPieces vis d.returning
  return returning.behind (.text "DELETE FROM " :: d.table.pieces ++ sources ++ filters)

/-- A delete that is checked consists of its other tables, its condition and what it returns. -/
theorem Delete.listed_ok {d : Delete} {l : Listed} (h : d.listed = .ok l) :
    d.check = .ok () ∧ ∃ sources filters returning, sourcesPieces " USING " d.sources = .ok sources ∧
      filtersPieces (inSight (d.table :: d.sources) []) d.filters = .ok filters ∧
      returningPieces (inSight (d.table :: d.sources) []) d.returning = .ok returning ∧
      l = returning.behind (.text "DELETE FROM " :: d.table.pieces ++ sources ++ filters) := by
  obtain ⟨_, hcheck, h⟩ := bind_eq_ok.mp h
  obtain ⟨sources, hsources, h⟩ := bind_eq_ok.mp h
  obtain ⟨filters, hfilters, h⟩ := bind_eq_ok.mp h
  obtain ⟨returning, hreturning, h⟩ := bind_eq_ok.mp h
  cases h
  exact ⟨hcheck, sources, filters, returning, hsources, hfilters, hreturning, rfl⟩

def Statement.listed : Statement → Except Error Listed
  | .select s => s.listed []
  | .insert i => i.listed
  | .update u => u.listed
  | .delete d => d.listed

section Steps

variable {vis : List Column} {a b : Rendering Unit} {r : Except Error Fragment} {l : Except Error Listed}

theorem Yields.congr {l' : Except Error Listed} (h : Yields vis a l) (ha : a = b) (hl : l = l') :
    Yields vis b l' := ha ▸ hl ▸ h

private theorem Adds.yields (h : Adds vis a r) : Yields vis a ((·, []) <$> r) := by
  cases r with
  | ok f => exact fun w => h [] w
  | error x => exact fun w => h [] w

private theorem Adds.thenYields (ha : Adds vis a r) (hb : Yields vis b l) :
    Yields vis (do a; b) (do let f ← r; Listed.behind f <$> l) := by
  cases r with
  | error x =>
    intro w
    have h := ha [] w
    rw [run_bind]
    rcases hr : a.run ⟨⟨vis, []⟩, w⟩ with ⟨y | y, c'⟩
    · simpa [hr] using h
    · simp [hr] at h
  | ok f =>
    cases l with
    | error x => intro w; rw [run_bind, ha]; exact hb (w ++ f)
    | ok g => intro w; rw [run_bind, ha]; exact (hb (w ++ f)).trans (by simp)

private theorem Yields.thenAdds (ha : Yields vis a l) (hb : Adds vis b r) :
    Yields vis (do a; b) (do let g ← l; g.before <$> r) := by
  cases l with
  | error x =>
    intro w
    have h := ha w
    rw [run_bind]
    rcases hr : a.run ⟨⟨vis, []⟩, w⟩ with ⟨y | y, c'⟩
    · simpa [hr] using h
    · simp [hr] at h
  | ok g =>
    cases r with
    | error x => intro w; rw [run_bind, ha]; exact hb g.2 (w ++ g.1)
    | ok f => intro w; rw [run_bind, ha]; exact (hb g.2 (w ++ g.1)).trans (by simp)

private theorem Yields.opened {t : Table} {ts : List Table} (h : Yields (inSight (t :: ts) vis) a l) :
    Yields vis (opened t ts a) l := by
  cases l with
  | ok g => exact fun w => run_opened (h w)
  | error x => exact fun w => congrArg Prod.fst (run_opened_error (Prod.ext (h w) rfl))

private theorem Target.list_yields (targets : List Target) :
    Yields vis (Target.renderNamed true targets) (Target.listed vis targets) := by
  unfold Target.listed
  cases h : Target.entries vis targets with
  | ok es => exact fun w => Target.renderNamed_run h true [] w
  | error x => exact fun w => Target.renderNamed_error h true [] w

theorem returning_yields (targets : List Target) :
    Yields vis (renderReturning targets) (returningPieces vis targets) := by
  unfold renderReturning returningPieces
  cases targets with
  | nil => exact Adds.skip.yields
  | cons t ts => exact ((Adds.write " RETURNING ").thenYields (Target.list_yields _)).congr rfl rfl

end Steps

section Clauses

variable {vis : List Column}

theorem names_adds (columns : List Column) : Adds vis (renderNames columns) (namesPieces columns) :=
  .separated ", " fun c _ => .writeName c.name

private theorem assignments_adds (assignments : List Assignment) :
    Adds vis (renderAssignments assignments) (assignmentsPieces vis assignments) :=
  .separated ", " fun a _ =>
    ((Adds.writeName a.column.name).bind ((Adds.write " = ").bind (a.expr.render_adds vis))).congr rfl
      (by simp [Assignment.pieces])

theorem filters_adds (filters : List Expr) :
    Adds vis (renderFilters filters) (filtersPieces vis filters) :=
  renderFilters_adds fun e _ => e.render_adds vis

theorem row_adds (columns : List Column) (row : List Assignment) :
    Adds vis (renderRow columns row) (rowPieces vis columns row) := by
  have h : Adds vis _ _ := (Adds.write "(").bind ((Adds.separated ", " fun c (_ : c ∈ columns) =>
    ((Assignment.find? row c).getD .default).render_adds vis).bind (.write ")"))
  exact h.congr rfl (by simp [rowPieces])

private def renderSources (word : String) (sources : List Table) : Rendering Unit :=
  if sources.isEmpty then return
  else do
    write word
    separated ", " Table.render sources

private theorem sources_adds (word : String) (sources : List Table) :
    Adds vis (renderSources word sources) (sourcesPieces word sources) := by
  unfold renderSources sourcesPieces
  cases sources with
  | nil => exact .skip
  | cons t ts =>
    exact ((Adds.write word).bind
      (.separated ", " fun t (_ : t ∈ _) => t.render_adds vis)).congr rfl (by simp)

private def OnConflict.renderTarget (c : OnConflict) : Rendering Unit :=
  if c.target.isEmpty then return
  else do
    write " ("
    renderNames c.target
    write ")"

private theorem conflictTarget_adds (c : OnConflict) : Adds vis c.renderTarget c.targetPieces := by
  unfold OnConflict.renderTarget OnConflict.targetPieces
  split
  · exact .skip
  · exact ((Adds.write " (").bind ((names_adds c.target).bind (.write ")"))).congr rfl (by simp)

private def ConflictAction.render (t : Table) : ConflictAction → Rendering Unit
  | .nothing => write " DO NOTHING"
  | .update assignments filters => opened t.excluded [] (do
    write " DO UPDATE SET "
    renderAssignments assignments
    renderFilters filters)

private theorem action_adds (action : ConflictAction) (t : Table) :
    Adds vis (action.render t) (action.pieces vis t) := by
  cases action with
  | nothing => exact .write _
  | update assignments filters =>
    have h : Adds vis (opened t.excluded [] _) _ := ((Adds.write " DO UPDATE SET ").bind
      ((assignments_adds assignments).bind (filters_adds filters))).opened
    exact h.congr rfl (by simp [ConflictAction.pieces])

private theorem OnConflict.render_eq (c : OnConflict) (t : Table) : c.render t = (do
    checkOwned t .onConflict c.target
    write " ON CONFLICT"
    c.renderTarget
    c.check t
    c.action.render t) := by
  obtain ⟨target, action⟩ := c
  cases action with
  | nothing => cases target <;> simp [render, check, renderTarget, ConflictAction.render]
  | update assignments filters =>
    cases target with
    | nil => simp [render, check, renderTarget]
    | cons c cs =>
      cases assignments <;> simp [render, check, opened, renderTarget, ConflictAction.render]

private theorem conflict_adds (c : OnConflict) (t : Table) : Adds vis (c.render t) (c.pieces vis t) := by
  have h : Adds vis _ _ := (Adds.lift (checkOwned t .onConflict c.target)).bind
    ((Adds.write " ON CONFLICT").bind ((conflictTarget_adds c).bind
      ((Adds.lift (c.check t)).bind (action_adds c.action t))))
  rw [c.render_eq]
  exact h.congr rfl (by simp [OnConflict.pieces])

private def renderConflict (t : Table) : Option OnConflict → Rendering Unit
  | some c => c.render t
  | none => return

private theorem conflictOption_adds (conflict : Option OnConflict) (t : Table) :
    Adds vis (renderConflict t conflict) (conflictPieces vis t conflict) := by
  cases conflict with
  | none => exact .skip
  | some c => exact conflict_adds c t

end Clauses

private theorem Insert.render_eq (i : Insert) : i.render = (do
    i.check
    opened i.table [] (do
      write "INSERT INTO "
      i.table.render
      write "("
      renderNames i.columns
      write ") VALUES "
      separated ", " (renderRow i.columns) i.rows
      renderConflict i.table i.conflict
      renderReturning i.returning)) := by
  unfold Insert.render Insert.check opened
  cases hr : i.rows.isEmpty with
  | true => rfl
  | false =>
    cases hc : checkRows i.table i.rows with
    | error x => simp
    | ok u =>
      cases hn : i.columns.isEmpty with
      | true => simp
      | false => cases i.conflict <;> simp [renderConflict]

private theorem Update.render_eq (u : Update) : u.render = (do
    u.check
    opened u.table u.sources (do
      write "UPDATE "
      u.table.render
      write " SET "
      renderAssignments u.assignments
      renderSources " FROM " u.sources
      renderFilters u.filters
      renderReturning u.returning)) := by
  unfold Update.render Update.check opened
  cases hf : u.filters.isEmpty with
  | true => rfl
  | false =>
    cases ha : u.assignments.isEmpty with
    | true => simp
    | false => cases u.sources <;> simp [renderSources]

private theorem Delete.render_eq (d : Delete) : d.render = (do
    d.check
    opened d.table d.sources (do
      write "DELETE FROM "
      d.table.render
      renderSources " USING " d.sources
      renderFilters d.filters
      renderReturning d.returning)) := by
  unfold Delete.render Delete.check opened
  cases hf : d.filters.isEmpty with
  | true => rfl
  | false => cases d.sources <;> simp [renderSources]

private theorem Select.write_yields (s : Select) : Yields [] (s.render .outermost) (s.listed []) := by
  have hlist : Yields (inSight (s.table :: s.joins) []) _ _ := Target.list_yields s.targets
  have h := (Adds.lift (Select.check s.targets s.limit)).thenYields
    ((Adds.write "SELECT ").thenYields (hlist.thenAdds (s.renderClauses_adds
      (.of_all fun e => e.render_adds _)))).opened
  rw [s.render_eq]
  exact h.congr (by simp [renderBody, renderClauses, Target.renderList]) (by simp [listed]; rfl)

private theorem Insert.write_yields (i : Insert) : Yields [] i.render i.listed := by
  have h := (Adds.lift i.check).thenYields ((Adds.write "INSERT INTO ").thenYields
    ((i.table.render_adds (inSight [i.table] [])).thenYields ((Adds.write "(").thenYields
      ((names_adds i.columns).thenYields ((Adds.write ") VALUES ").thenYields
        ((Adds.separated ", " fun row (_ : row ∈ i.rows) => row_adds i.columns row).thenYields
          ((conflictOption_adds i.conflict i.table).thenYields (returning_yields i.returning)))))))).opened
  rw [i.render_eq]
  exact h.congr rfl (by simp [listed, Listed.behind])

private theorem Update.write_yields (u : Update) : Yields [] u.render u.listed := by
  have h := (Adds.lift u.check).thenYields ((Adds.write "UPDATE ").thenYields
    ((u.table.render_adds (inSight (u.table :: u.sources) [])).thenYields
      ((Adds.write " SET ").thenYields ((assignments_adds u.assignments).thenYields
        ((sources_adds " FROM " u.sources).thenYields ((filters_adds u.filters).thenYields
          (returning_yields u.returning))))))).opened
  rw [u.render_eq]
  exact h.congr rfl (by simp [listed, Listed.behind])

private theorem Delete.write_yields (d : Delete) : Yields [] d.render d.listed := by
  have h := (Adds.lift d.check).thenYields ((Adds.write "DELETE FROM ").thenYields
    ((d.table.render_adds (inSight (d.table :: d.sources) [])).thenYields
      ((sources_adds " USING " d.sources).thenYields ((filters_adds d.filters).thenYields
        (returning_yields d.returning))))).opened
  rw [d.render_eq]
  exact h.congr rfl (by simp [listed, Listed.behind])

/-- A rendered statement consists of its pieces and outputs, and fails where one of its parts does. -/
theorem Statement.render_eq (s : Statement) :
    s.render = (fun l => ⟨s.kind, l.1, l.2.map Prod.snd⟩) <$> s.listed := by
  have h : Yields [] s.write s.listed := by
    cases s with
    | select s => exact s.write_yields
    | insert i => exact i.write_yields
    | update u => exact u.write_yields
    | delete d => exact d.write_yields
  unfold Statement.render
  cases hl : s.listed with
  | ok l =>
    rw [hl] at h
    have hr : s.write.run .blank = _ := h []
    rw [hr]; rfl
  | error x =>
    rw [hl] at h
    have hr : (s.write.run .blank).1 = .error x := h []
    rcases he : s.write.run .blank with ⟨y | y, c⟩
    · simpa [he] using hr
    · simp [he] at hr

end TypedSql.Sql

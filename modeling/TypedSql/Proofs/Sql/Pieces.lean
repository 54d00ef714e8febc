import TypedSql.Proofs.Outcome
import TypedSql.Proofs.Sql.Visibility
import TypedSql.Sql.Statement

/-! The pieces that terms and selects consist of, as functions of the columns in sight. -/
namespace TypedSql.Sql

/-- The pieces of some items with a text between them; the first item that fails decides. -/
def separatedPieces (separator : String) : List (Except Error Fragment) → Except Error Fragment
  | [] => .ok []
  | [r] => r
  | r :: rest => do
    let f ← r
    let g ← separatedPieces separator rest
    return f ++ .text separator :: g

/-- Texts with a text between them. -/
def joined (separator : String) : List Fragment → Fragment
  | [] => []
  | [f] => f
  | f :: rest => f ++ .text separator :: joined separator rest

theorem joined_cons_cons (separator : String) (f g : Fragment) (fs : List Fragment) :
    joined separator (f :: g :: fs) = f ++ .text separator :: joined separator (g :: fs) := rfl

/-- Items with a text between them, each with a text of its own, of which `P` holds. -/
theorem separatedPieces_ok {α : Type} {P : α → Fragment → Prop} {separator : String}
    {pieces : α → Except Error Fragment} {items : List α} {f : Fragment}
    (h : separatedPieces separator (items.map pieces) = .ok f)
    (hitems : ∀ i ∈ items, ∀ g, pieces i = .ok g → P i g) :
    ∃ fs, List.Forall₂ P items fs ∧ f = joined separator fs := by
  induction items generalizing f with
  | nil =>
    cases h
    exact ⟨[], .nil, rfl⟩
  | cons i rest ih =>
    obtain ⟨hi, hrest⟩ := List.forall_mem_cons.mp hitems
    cases rest with
    | nil => exact ⟨[f], .cons (hi f h) .nil, rfl⟩
    | cons j rest =>
      obtain ⟨g, hg, h⟩ := bind_eq_ok.mp h
      obtain ⟨f', hf', h⟩ := bind_eq_ok.mp h
      obtain ⟨gs, hgs, rfl⟩ := ih hf' hrest
      cases h
      cases hgs with
      | cons hj hgs => exact ⟨_, .cons (hi g hg) (.cons hj hgs), rfl⟩

/-- Items whose texts are given. -/
theorem separatedPieces_given {α : Type} (separator : String) (text : α → Fragment) (items : List α) :
    separatedPieces separator (items.map fun i => .ok (text i)) = .ok (joined separator (items.map text)) := by
  induction items with
  | nil => rfl
  | cons i items ih => cases items with
    | nil => rfl
    | cons j items =>
      rw [List.map_cons] at ih
      simp [separatedPieces, ih, joined_cons_cons]

def wrapped (wrap : Bool) (f : Fragment) : Fragment :=
  if wrap then .text "(" :: f ++ [.text ")"] else f

/-- A placeholder with its parameter, if the value has a form in the type. -/
def bindPieces (type : TypeRef) (v : Value) : Except Error Fragment :=
  (fun w => [.parameter ⟨w, type⟩]) <$> type.encode v

def Table.pieces (t : Table) : Fragment :=
  .name t.name :: match t.otherName with
    | some otherName => [.text " AS ", .name otherName]
    | none => []

def Column.pieces (vis : List Column) (c : Column) : Fragment :=
  if (Scope.mk vis []).needsQualification c then [.name c.owner, .text ".", .name c.name]
  else [.name c.name]

/-- The condition of a clause, if there is any. -/
def wherePieces (filters : List (Except Error Fragment)) : Except Error Fragment :=
  if filters.isEmpty then .ok [] else (.text " WHERE " :: ·) <$> separatedPieces " AND " filters

def orderPieces (sorting : List (Except Error Fragment)) : Except Error Fragment :=
  if sorting.isEmpty then .ok [] else (.text " ORDER BY " :: ·) <$> separatedPieces ", " sorting

def lockPieces (lock : Option Lock) : Fragment :=
  (lock.map fun l => .text l.text).toList

def limitPieces : Option Int64 → Except Error Fragment
  | some n => (.text " LIMIT " :: ·) <$> bindPieces limitType (.scalar (.int64 n))
  | none => .ok []

def fromPieces (tables : List Table) : Except Error Fragment :=
  (.text " FROM " :: ·) <$> separatedPieces ", " (tables.map fun t => .ok t.pieces)

/-- What a select asks of its entries and its limit before anything is written. -/
def Select.check (targets : List Target) (limit : Option Int64) : Except Error Unit :=
  if targets.isEmpty then .error (.statement .noTargets)
  else match limit with
    | some n => if n < 0 then .error (.statement (.negativeLimit n.toInt)) else .ok ()
    | none => .ok ()

/-- What follows the entries of a select. -/
def clausePieces (tables : List Table) (filters sorting : List (Except Error Fragment))
    (lock : Option Lock) (limit : Option Int64) : Except Error Fragment := do
  let tables ← fromPieces tables
  let filters ← wherePieces filters
  let sorting ← orderPieces sorting
  let limit ← limitPieces limit
  return tables ++ filters ++ sorting ++ lockPieces lock ++ limit

def sortPieces (order : Order) (f : Fragment) : Fragment :=
  f ++ if order = .descending then [.text " DESC"] else []

/-- An operand, in parentheses where its operator asks for them. -/
def Expr.operandPieces (e : Expr) (parent : Nat) (chains : Operator → Bool) (f : Fragment) : Fragment :=
  wrapped (e.needsParentheses parent chains) f

mutual

def Expr.pieces (vis : List Column) : Expr → Except Error Fragment
  | .column c => .ok (c.pieces vis)
  | .param v type => bindPieces type v
  | .default => .ok [.text "DEFAULT"]
  | .bool b => .ok [.text (if b then "TRUE" else "FALSE")]
  | .call function args => do
    let f ← separatedPieces ", " (Expr.each vis args)
    return .function function :: .text "(" :: f ++ [.text ")"]
  | .binary op left right => do
    let f ← left.pieces vis
    let g ← right.pieces vis
    return left.operandPieces op.precedence op.chains f ++
      .text " " :: .text op.text :: .text " " :: right.operandPieces op.precedence op.chains g
  | .not e => do
    let f ← e.pieces vis
    return .text "NOT " :: e.operandPieces negationPrecedence (fun _ => false) f
  | .nullTest e negated => do
    let f ← e.pieces vis
    return e.operandPieces comparisonPrecedence (fun _ => false) f ++
      [.text (if negated then " IS NOT NULL" else " IS NULL")]
  | .within e values element =>
    match element.arrayOf? with
    | none => .error (.parameter (.noArrayType element.sqlName))
    | some array => do
      let f ← e.pieces vis
      let g ← bindPieces array (.array values)
      return e.operandPieces comparisonPrecedence (fun _ => false) f ++
        .text " = ANY(" :: g ++ [.text ")"]
  | .subquery s => do
    let f ← s.pieces vis
    return .text "(" :: f ++ [.text ")"]
  | .existence s => do
    let f ← s.pieces vis
    return .text "EXISTS (" :: f ++ [.text ")"]

def Expr.each (vis : List Column) : List Expr → List (Except Error Fragment)
  | [] => []
  | e :: rest => e.pieces vis :: Expr.each vis rest

/-- The operands of a conjunction. -/
def Expr.eachConjunct (vis : List Column) : List Expr → List (Except Error Fragment)
  | [] => []
  | e :: rest =>
    (e.operandPieces Operator.and.precedence (Operator.and.chains ·) <$> e.pieces vis) ::
      Expr.eachConjunct vis rest

def Target.each (vis : List Column) : List Target → List (Except Error Fragment)
  | [] => []
  | ⟨_, e, _⟩ :: rest => e.pieces vis :: Target.each vis rest

def SortTerm.each (vis : List Column) : List SortTerm → List (Except Error Fragment)
  | [] => []
  | ⟨e, order⟩ :: rest => (sortPieces order <$> e.pieces vis) :: SortTerm.each vis rest

/-- A select within a term; its tables are in sight of all its clauses. -/
def Select.pieces (vis : List Column) : Select → Except Error Fragment
  | ⟨table, joins, targets, filters, sorting, lock, limit⟩ => do
    Select.check targets limit
    let vis := inSight (table :: joins) vis
    let list ← separatedPieces ", " (Target.each vis targets)
    let clauses ← clausePieces (table :: joins) (Expr.eachConjunct vis filters)
      (SortTerm.each vis sorting) lock limit
    return .text "SELECT " :: list ++ clauses

end

def Expr.conjunctPieces (vis : List Column) (e : Expr) : Except Error Fragment :=
  e.operandPieces Operator.and.precedence (Operator.and.chains ·) <$> e.pieces vis

def SortTerm.pieces (vis : List Column) (t : SortTerm) : Except Error Fragment :=
  sortPieces t.order <$> t.expr.pieces vis

@[simp] theorem Expr.each_eq (vis : List Column) (es : List Expr) :
    Expr.each vis es = es.map (Expr.pieces vis) := by
  induction es with
  | nil => rfl
  | cons e es ih => rw [Expr.each, ih, List.map_cons]

@[simp] theorem Expr.eachConjunct_eq (vis : List Column) (es : List Expr) :
    Expr.eachConjunct vis es = es.map (Expr.conjunctPieces vis) := by
  induction es with
  | nil => rfl
  | cons e es ih => rw [Expr.eachConjunct, ih, List.map_cons, Expr.conjunctPieces]

@[simp] theorem Target.each_eq (vis : List Column) (ts : List Target) :
    Target.each vis ts = ts.map fun t => t.expr.pieces vis := by
  induction ts with
  | nil => rfl
  | cons t ts ih => obtain ⟨_, _, _⟩ := t; rw [Target.each, ih, List.map_cons]

@[simp] theorem SortTerm.each_eq (vis : List Column) (ts : List SortTerm) :
    SortTerm.each vis ts = ts.map (SortTerm.pieces vis) := by
  induction ts with
  | nil => rfl
  | cons t ts ih => obtain ⟨_, _⟩ := t; rw [SortTerm.each, ih, List.map_cons, SortTerm.pieces]

def Select.clausePieces (vis : List Column) (s : Select) : Except Error Fragment :=
  Sql.clausePieces (s.table :: s.joins) (s.filters.map (Expr.conjunctPieces vis))
    (s.sorting.map (SortTerm.pieces vis)) s.lock s.limit

/-- Every term of the clauses of a select has a property. -/
structure Select.Each (P : Expr → Prop) (s : Select) : Prop where
  targets : ∀ t ∈ s.targets, P t.expr
  filters : ∀ e ∈ s.filters, P e
  sorting : ∀ t ∈ s.sorting, P t.expr

theorem Select.Each.imp {P Q : Expr → Prop} {s : Select} (h : s.Each P) (himp : ∀ e, P e → Q e) :
    s.Each Q :=
  ⟨fun t ht => himp _ (h.targets t ht), fun e he => himp e (h.filters e he),
    fun t ht => himp _ (h.sorting t ht)⟩

theorem Select.Each.of_all {P : Expr → Prop} {s : Select} (h : ∀ e, P e) : s.Each P :=
  ⟨fun _ _ => h _, fun e _ => h e, fun _ _ => h _⟩

/-- Terms by induction, with the terms of a subquery at once. -/
@[elab_as_elim] theorem Expr.induction {P : Expr → Prop} (column : ∀ c, P (.column c))
    (param : ∀ v type, P (.param v type)) (default : P .default) (bool : ∀ b, P (.bool b))
    (call : ∀ function args, (∀ e ∈ args, P e) → P (.call function args))
    (binary : ∀ op left right, P left → P right → P (.binary op left right))
    (not : ∀ e, P e → P (.not e)) (nullTest : ∀ e negated, P e → P (.nullTest e negated))
    (within : ∀ e values element, P e → P (.within e values element))
    (subquery : ∀ s : Select, s.Each P → P (.subquery s))
    (existence : ∀ s : Select, s.Each P → P (.existence s)) (e : Expr) : P e := by
  refine @Expr.rec P (fun t => P t.expr) (fun t => P t.expr) (Select.Each P)
    (fun es => ∀ e ∈ es, P e) (fun ts => ∀ t ∈ ts, P t.expr) (fun ts => ∀ t ∈ ts, P t.expr)
    column param default bool call binary not nullTest within subquery existence
    ?_ ?_ (fun _ _ _ _ _ _ _ ht hf ho => ⟨ht, hf, ho⟩) ?_ ?_ ?_ ?_ ?_ ?_ e <;> simp_all

section Writing

variable {vis : List Column} {f : Fragment}

theorem tablesPieces_ok {tables : List Table}
    (h : separatedPieces ", " (tables.map fun t => .ok t.pieces) = .ok f) :
    f = joined ", " (tables.map Table.pieces) :=
  (Except.ok.inj ((separatedPieces_given ", " Table.pieces tables).symm.trans h)).symm

/-- The clauses of a select, in their order. -/
theorem Select.clausePieces_ok {s : Select} (h : s.clausePieces vis = .ok f) :
    ∃ filters sorting limit, wherePieces (s.filters.map (Expr.conjunctPieces vis)) = .ok filters ∧
      orderPieces (s.sorting.map (SortTerm.pieces vis)) = .ok sorting ∧ limitPieces s.limit = .ok limit ∧
      f = .text " FROM " :: joined ", " ((s.table :: s.joins).map Table.pieces) ++ filters ++ sorting ++
        lockPieces s.lock ++ limit := by
  obtain ⟨source, hsource, h⟩ := bind_eq_ok.mp h
  obtain ⟨filters, hfilters, h⟩ := bind_eq_ok.mp h
  obtain ⟨sorting, hsorting, h⟩ := bind_eq_ok.mp h
  obtain ⟨limit, hlimit, h⟩ := bind_eq_ok.mp h
  cases h
  obtain ⟨tables, htables, rfl⟩ := map_eq_ok.mp hsource
  exact ⟨filters, sorting, limit, hfilters, hsorting, hlimit, by rw [tablesPieces_ok htables]⟩

theorem Select.ne_nil_of_check {targets : List Target} {limit : Option Int64} {u : Unit}
    (h : Select.check targets limit = .ok u) : targets ≠ [] := by
  rintro rfl
  cases h

/-- A select has entries, and consists of them and of its clauses. -/
theorem Select.pieces_ok {s : Select} (h : s.pieces vis = .ok f) :
    s.targets ≠ [] ∧ ∃ list clauses,
      separatedPieces ", " (s.targets.map fun t => t.expr.pieces (inSight (s.table :: s.joins) vis)) =
        .ok list ∧
      s.clausePieces (inSight (s.table :: s.joins) vis) = .ok clauses ∧
      f = .text "SELECT " :: list ++ clauses := by
  obtain ⟨table, joins, targets, filters, sorting, lock, limit⟩ := s
  simp only [Select.pieces, Target.each_eq, Expr.eachConjunct_eq, SortTerm.each_eq] at h
  obtain ⟨_, hcheck, h⟩ := bind_eq_ok.mp h
  obtain ⟨list, hlist, h⟩ := bind_eq_ok.mp h
  obtain ⟨clauses, hclauses, h⟩ := bind_eq_ok.mp h
  cases h
  exact ⟨ne_nil_of_check hcheck, list, clauses, hlist, hclauses, rfl⟩

/-- Written terms by induction: what a term consists of comes from what its parts consist of. -/
theorem Expr.pieces_induction {P : Expr → List Column → Fragment → Prop}
    (column : ∀ c vis, P (.column c) vis (c.pieces vis))
    (param : ∀ v type vis f, bindPieces type v = .ok f → P (.param v type) vis f)
    (default : ∀ vis, P .default vis [.text "DEFAULT"])
    (bool : ∀ b vis, P (.bool b) vis [.text (if b then "TRUE" else "FALSE")])
    (call : ∀ function args vis fs, List.Forall₂ (P · vis) args fs →
      P (.call function args) vis (.function function :: .text "(" :: joined ", " fs ++ [.text ")"]))
    (binary : ∀ op left right vis f g, P left vis f → P right vis g →
      P (.binary op left right) vis (left.operandPieces op.precedence op.chains f ++
        .text " " :: .text op.text :: .text " " :: right.operandPieces op.precedence op.chains g))
    (not : ∀ e vis f, P e vis f →
      P (.not e) vis (.text "NOT " :: e.operandPieces negationPrecedence (fun _ => false) f))
    (nullTest : ∀ e negated vis f, P e vis f →
      P (.nullTest e negated) vis (e.operandPieces comparisonPrecedence (fun _ => false) f ++
        [.text (if negated then " IS NOT NULL" else " IS NULL")]))
    (within : ∀ e values element array vis f g, element.arrayOf? = some array → P e vis f →
      bindPieces array (.array values) = .ok g →
      P (.within e values element) vis (e.operandPieces comparisonPrecedence (fun _ => false) f ++
        .text " = ANY(" :: g ++ [.text ")"]))
    (subquery : ∀ (s : Select) vis f, s.Each (fun e => ∀ vis g, e.pieces vis = .ok g → P e vis g) →
      s.pieces vis = .ok f → P (.subquery s) vis (.text "(" :: f ++ [.text ")"]))
    (existence : ∀ (s : Select) vis f, s.Each (fun e => ∀ vis g, e.pieces vis = .ok g → P e vis g) →
      s.pieces vis = .ok f → P (.existence s) vis (.text "EXISTS (" :: f ++ [.text ")"]))
    (e : Expr) (vis : List Column) (f : Fragment) (h : e.pieces vis = .ok f) : P e vis f := by
  induction e using Expr.induction generalizing vis f with
  | column c =>
    cases h
    exact column c vis
  | param v type => exact param v type vis f h
  | default =>
    cases h
    exact default vis
  | bool b =>
    cases h
    exact bool b vis
  | call function args ih =>
    rw [Expr.pieces, Expr.each_eq] at h
    obtain ⟨g, hg, h⟩ := bind_eq_ok.mp h
    cases h
    obtain ⟨fs, hfs, rfl⟩ := separatedPieces_ok hg fun e he => ih e he vis
    exact call function args vis fs hfs
  | binary op left right hl hr =>
    obtain ⟨f, hf, h⟩ := bind_eq_ok.mp h
    obtain ⟨g, hg, h⟩ := bind_eq_ok.mp h
    cases h
    exact binary op left right vis f g (hl vis f hf) (hr vis g hg)
  | not e ih =>
    obtain ⟨f, hf, h⟩ := bind_eq_ok.mp h
    cases h
    exact not e vis f (ih vis f hf)
  | nullTest e negated ih =>
    obtain ⟨f, hf, h⟩ := bind_eq_ok.mp h
    cases h
    exact nullTest e negated vis f (ih vis f hf)
  | within e values element ih =>
    rw [Expr.pieces] at h
    cases ha : element.arrayOf? with
    | none => simp [ha] at h
    | some array =>
      simp only [ha] at h
      obtain ⟨f, hf, h⟩ := bind_eq_ok.mp h
      obtain ⟨g, hg, h⟩ := bind_eq_ok.mp h
      cases h
      exact within e values element array vis f g ha (ih vis f hf) hg
  | subquery s ih =>
    obtain ⟨f, hf, h⟩ := bind_eq_ok.mp h
    cases h
    exact subquery s vis f ih hf
  | existence s ih =>
    obtain ⟨f, hf, h⟩ := bind_eq_ok.mp h
    cases h
    exact existence s vis f ih hf

end Writing

end TypedSql.Sql

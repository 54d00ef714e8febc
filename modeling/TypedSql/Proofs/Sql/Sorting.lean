import TypedSql.Proofs.Sql.References

/-! What a select is sorted by: SQL takes a bare name in the order for an output of that name before it looks
for a column, so a column named like an output gives way to the term of that output. -/
namespace TypedSql.Sql

def Query.entries : Query → List Item
  | ⟨entries, _, _, _, _, _⟩ => entries

def Query.sorting : Query → List Item
  | ⟨_, _, _, sorting, _, _⟩ => sorting

/-- The term a sorted item stands for: the entry that goes by its name if it is a bare one, else itself. -/
def Query.sortKey (q : Query) (i : Item) : Tree :=
  match i.term with
  | .column none name =>
    match q.entries.find? fun e => e.suffix = .named name with
    | some e => e.term
    | none => .column none name
  | t => t

namespace Tree

/-- A column has no chain to group otherwise. -/
theorem Regroups.of_column {owner : Option String} {name : String} {t : Tree}
    (h : (column owner name).Regroups t) : t = column owner name := by
  induction h with
  | refl => rfl
  | tail _ hstep ih =>
    subst ih
    cases hstep

theorem Regroups.to_column {owner : Option String} {name : String} {t : Tree}
    (h : t.Regroups (column owner name)) : t = column owner name := by
  cases h with
  | refl => rfl
  | tail _ hstep => cases hstep

end Tree

section Parts

private theorem forall₂_replace {before behind : List Item} {a a' : Tree} {suffix : Suffix}
    (ha : a.Regroup a') {items : List Item}
    (h : List.Forall₂ Item.Regroups items (before ++ ⟨a, suffix⟩ :: behind)) :
    List.Forall₂ Item.Regroups items (before ++ ⟨a', suffix⟩ :: behind) := by
  induction before generalizing items with
  | nil =>
    cases h with
    | cons hfirst hrest => exact .cons ⟨hfirst.1, hfirst.2.tail ha⟩ hrest
  | cons i before ih =>
    cases h with
    | cons hfirst hrest => exact .cons hfirst (ih hrest)

/-- Grouping the chains of a query otherwise changes neither the entries nor the order beyond that. -/
theorem Query.Regroups.parts {q q' : Query} (h : q.Regroups q') :
    List.Forall₂ Item.Regroups q.entries q'.entries ∧ List.Forall₂ Item.Regroups q.sorting q'.sorting := by
  have hsame (items : List Item) : List.Forall₂ Item.Regroups items items :=
    List.forall₂_same.mpr fun i _ => ⟨rfl, .refl i.term⟩
  have hall (t : Tree) (ht : (Tree.nested false q).Regroups t) : ∃ q', t = .nested false q' ∧
      List.Forall₂ Item.Regroups q.entries q'.entries ∧ List.Forall₂ Item.Regroups q.sorting q'.sorting := by
    induction ht with
    | refl => exact ⟨q, rfl, hsame q.entries, hsame q.sorting⟩
    | tail _ hstep ih =>
      obtain ⟨q', rfl, hentries, hsorting⟩ := ih
      cases hstep with
      | entry before suffix behind ha => exact ⟨_, rfl, forall₂_replace ha hentries, hsorting⟩
      | condition => exact ⟨_, rfl, hentries, hsorting⟩
      | sorted before suffix behind ha => exact ⟨_, rfl, hentries, forall₂_replace ha hsorting⟩
  obtain ⟨_, heq, hparts⟩ := hall _ (h false)
  cases heq
  exact hparts

end Parts

section Columns

variable {vis : List Column} {c d : Column}

/-- The same column is written in the same way. -/
theorem Column.tree_of_same (h : c.same d = true) :
    (Expr.column c).tree vis = (Expr.column d).tree vis := by
  obtain ⟨owner, name, type⟩ := c
  obtain ⟨owner', name', type'⟩ := d
  obtain ⟨rfl, rfl⟩ : owner = owner' ∧ name = name' := by simpa [Column.same] using h
  rfl

/-- Columns that are written bare under one name are the same. -/
theorem Column.same_of_bare (hc : (Scope.mk vis []).needsQualification c = false)
    (hd : (Scope.mk vis []).needsQualification d = false) (hname : d.name = c.name) : c.same d = true := by
  obtain ⟨-, honly⟩ : Scope.isVisible ⟨vis, []⟩ c = true ∧
      ∀ e ∈ vis, e.name = c.name → c.same e = true := by
    simpa [Scope.needsQualification] using hc
  obtain ⟨hseen, -⟩ : Scope.isVisible ⟨vis, []⟩ d = true ∧
      ∀ e ∈ vis, e.name = d.name → d.same e = true := by
    simpa [Scope.needsQualification] using hd
  obtain ⟨e, he, hde⟩ := List.any_eq_true.mp hseen
  obtain ⟨howner, hname'⟩ : d.owner = e.owner ∧ d.name = e.name := by simpa [Column.same] using hde
  obtain ⟨howner', -⟩ : c.owner = e.owner ∧ c.name = e.name := by
    simpa [Column.same] using honly e he (hname'.symm.trans hname)
  simp [Column.same, howner, howner', hname]

theorem Expr.column_of_tree {e : Expr} {owner : Option String} {name : String}
    (h : e.tree vis = .column owner name) : ∃ c, e = .column c ∧ c.name = name ∧
      owner = if (Scope.mk vis []).needsQualification c then some c.owner else none := by
  cases e with
  | column c =>
    cases h
    exact ⟨c, rfl, rfl, rfl⟩
  | _ => cases h

end Columns

/-- The entries of a list are read under the names of their outputs. -/
theorem Target.namedItems_getElem? (vis : List Column) (index k : Nat) (ts : List Target) :
    (Target.namedItems vis index ts)[k]? =
      ts[k]?.map fun t => ⟨t.expr.tree vis, .named (Scope.outputName (index + k))⟩ := by
  induction ts generalizing index k with
  | nil => rfl
  | cons t ts ih =>
    cases k with
    | zero => rfl
    | succ k =>
      have hindex : index + 1 + k = index + (k + 1) := by omega
      rw [Target.namedItems, List.getElem?_cons_succ, List.getElem?_cons_succ, ih, hindex]

private theorem forall₂_getElem? {α β : Type} {R : α → β → Prop} {l : List α} {l' : List β}
    (h : List.Forall₂ R l l') (k : Nat) : Option.Rel R l[k]? l'[k]? := by
  induction h generalizing k with
  | nil => exact .none
  | cons hfirst _ ih =>
    cases k with
    | zero => exact .some hfirst
    | succ k => exact ih k

/-- The entries a query is read with are those of some targets, by the names of their outputs. -/
structure Query.Lists (q : Query) (vis : List Column) (targets : List Target) : Prop where
  entry : ∀ (k : Nat) (e : Item), q.entries[k]? = some e → ∃ t, targets[k]? = some t ∧
    (t.expr.tree vis).Regroups e.term ∧ e.suffix = .named (Scope.outputName k)
  target : ∀ (k : Nat) (t : Target), targets[k]? = some t → ∃ e, q.entries[k]? = some e

theorem Query.lists_of_regroups {q : Query} {vis : List Column} {targets : List Target}
    (h : List.Forall₂ Item.Regroups (Target.namedItems vis 0 targets) q.entries) : q.Lists vis targets := by
  have hplace (k : Nat) : Option.Rel Item.Regroups
      (targets[k]?.map fun t => ⟨t.expr.tree vis, .named (Scope.outputName k)⟩) q.entries[k]? := by
    have hrel := forall₂_getElem? h k
    rwa [Target.namedItems_getElem?, Nat.zero_add] at hrel
  constructor
  · intro k e he
    have hrel := hplace k
    rw [he] at hrel
    cases htarget : targets[k]? with
    | none =>
      rw [htarget] at hrel
      cases hrel
    | some t =>
      rw [htarget] at hrel
      obtain ⟨hsuffix, hterm⟩ := Option.rel_some_some.mp hrel
      exact ⟨t, rfl, hterm, hsuffix.symm⟩
  · intro k t ht
    have hrel := hplace k
    rw [ht] at hrel
    cases he : q.entries[k]? with
    | none =>
      rw [he] at hrel
      cases hrel
    | some e => exact ⟨e, rfl⟩

section Keys

variable {q : Query} {vis : List Column} {targets : List Target} {name : String} {i : Item}

/-- The entry that goes by a name is the one at the place the name was made from. -/
theorem Query.Lists.find? (h : q.Lists vis targets) {e : Item} :
    q.entries.find? (fun e => e.suffix = .named name) = some e ↔
      ∃ k, name = Scope.outputName k ∧ q.entries[k]? = some e := by
  have hplace {e : Item} (hfind : q.entries.find? (fun e => e.suffix = .named name) = some e) :
      ∃ k, name = Scope.outputName k ∧ q.entries[k]? = some e := by
    obtain ⟨k, hk⟩ := List.mem_iff_getElem?.mp (List.mem_of_find?_eq_some hfind)
    obtain ⟨_, -, -, hsuffix⟩ := h.entry k e hk
    have hname : e.suffix = .named name := by simpa using List.find?_some hfind
    rw [hsuffix] at hname
    cases hname
    exact ⟨k, rfl, hk⟩
  refine ⟨hplace, fun ⟨k, hname, hk⟩ => ?_⟩
  obtain ⟨_, -, -, hsuffix⟩ := h.entry k e hk
  cases hfind : q.entries.find? (fun e => e.suffix = .named name) with
  | none =>
    have hnone := List.find?_eq_none.mp hfind e (List.mem_of_getElem? hk)
    exact absurd (by simpa [hname] using hsuffix) hnone
  | some e' =>
    obtain ⟨k', hname', hk'⟩ := hplace hfind
    obtain rfl := Word.outputName_injective (hname.symm.trans hname')
    rw [← hk', hk]

theorem Query.sortKey_found (hi : i.term = .column none name) {e : Item}
    (hfind : q.entries.find? (fun e => e.suffix = .named name) = some e) : q.sortKey i = e.term := by
  rw [sortKey, hi]
  simp only [hfind]

/-- An item stands for itself unless it is a bare name that an entry of another term goes by. -/
theorem Query.sortKey_own (h : ∀ name e, i.term = .column none name →
      q.entries.find? (fun e => e.suffix = .named name) = some e → e.term = .column none name) :
    q.sortKey i = i.term := by
  unfold sortKey
  split
  case h_1 name hi =>
    split
    case h_1 e hfind => exact (h name e hi hfind).trans hi.symm
    case h_2 => exact hi.symm
  case h_2 => rfl

end Keys

/-- A sorted column that gives way to a target: it is written bare, an output is named like it, and the
target of that output is not that column. -/
def Select.Captured (s : Select) (e : Expr) (target : Target) : Prop :=
  ∃ c k, e = .column c ∧ (Occurrence.mk [s.table :: s.joins] c).owner = none ∧
    c.name = Scope.outputName k ∧
    (Target.written (inSight (s.table :: s.joins) []) s.targets)[k]? = some target ∧
    ∀ d, target.expr = .column d → c.same d = false

/-- What becomes of a sorted term in the text: the item `i` of the query. -/
structure Select.SortsBy (s : Select) (q : Query) (t : SortTerm) (i : Item) : Prop where
  direction : i.suffix = t.order.suffix
  term : (t.expr.tree (inSight (s.table :: s.joins) [])).Regroups i.term
  /-- A column is written such that it means that column wherever it is looked up among columns. -/
  column : ∀ c, t.expr = .column c → (Occurrence.mk [s.table :: s.joins] c).Proper →
    ∃ owner d, i.term = .column owner c.name ∧
      resolve [s.table :: s.joins] owner c.name = some d ∧ c.same d = true
  /-- A term that gives way to no target is sorted by as it stands. -/
  own : (∀ target, ¬ s.Captured t.expr target) → q.sortKey i = i.term
  /-- A column that gives way to a target is sorted by that one, which is another term. -/
  other : ∀ target, s.Captured t.expr target →
    (target.expr.tree (inSight (s.table :: s.joins) [])).Regroups (q.sortKey i) ∧ q.sortKey i ≠ i.term

section Sorted

variable {s : Select} {q : Query} {t : SortTerm} {i : Item} {c : Column}

private theorem column_tree (s : Select) (c : Column) :
    (Expr.column c).tree (inSight (s.table :: s.joins) []) =
      .column (Occurrence.mk [s.table :: s.joins] c).owner c.name := rfl

private theorem owner_eq_none : (Occurrence.mk [s.table :: s.joins] c).owner = none ↔
    (Scope.mk (inSight (s.table :: s.joins) []) []).needsQualification c = false := by
  have howner : (Occurrence.mk [s.table :: s.joins] c).owner =
      if (Scope.mk (inSight (s.table :: s.joins) []) []).needsQualification c then some c.owner else none := rfl
  rw [howner]
  split <;> simp_all

/-- A term that gives way to no target is sorted by as it stands. -/
private theorem sortKey_of_free
    (hq : q.Lists (inSight (s.table :: s.joins) [])
      (Target.written (inSight (s.table :: s.joins) []) s.targets))
    (hterm : (t.expr.tree (inSight (s.table :: s.joins) [])).Regroups i.term)
    (hfree : ∀ target, ¬ s.Captured t.expr target) : q.sortKey i = i.term := by
  apply Query.sortKey_own
  intro name e hbare hfind
  obtain ⟨k, rfl, hk⟩ := hq.find?.mp hfind
  obtain ⟨target, htarget, hentry, -⟩ := hq.entry k e hk
  rw [hbare] at hterm
  have htree := hterm.to_column
  obtain ⟨c, hc, hname, howner⟩ := Expr.column_of_tree htree
  -- The target of that output can only be the same column, which is written in the same way.
  obtain ⟨d, hd, hsame⟩ : ∃ d, target.expr = .column d ∧ c.same d = true := by
    by_contra hother
    refine hfree target ⟨c, k, hc, howner.symm, hname, htarget, fun d hd => ?_⟩
    exact Bool.eq_false_iff.mpr fun hsame => hother ⟨d, hd, hsame⟩
  rw [hd, ← Column.tree_of_same hsame, ← hc, htree] at hentry
  exact hentry.of_column

/-- A column that gives way to a target is sorted by that one, which is written differently. -/
private theorem sortKey_of_captured
    (hq : q.Lists (inSight (s.table :: s.joins) [])
      (Target.written (inSight (s.table :: s.joins) []) s.targets))
    (hterm : (t.expr.tree (inSight (s.table :: s.joins) [])).Regroups i.term) {target : Target}
    (hcaptured : s.Captured t.expr target) :
    (target.expr.tree (inSight (s.table :: s.joins) [])).Regroups (q.sortKey i) ∧ q.sortKey i ≠ i.term := by
  obtain ⟨c, k, hc, howner, hname, htarget, hother⟩ := hcaptured
  obtain ⟨e, he⟩ := hq.target k target htarget
  obtain ⟨target', htarget', hentry, -⟩ := hq.entry k e he
  obtain rfl := Option.some.inj (htarget.symm.trans htarget')
  rw [hc, column_tree, howner] at hterm
  have hbare := hterm.of_column
  have hkey : q.sortKey i = e.term := Query.sortKey_found hbare (hq.find?.mpr ⟨k, hname, he⟩)
  rw [hkey, hbare]
  refine ⟨hentry, fun hsame => ?_⟩
  -- If both were the bare name, the target would be the column itself.
  rw [hsame] at hentry
  obtain ⟨d, hd, hname', howner'⟩ := Expr.column_of_tree hentry.to_column
  have hboth := Column.same_of_bare (owner_eq_none.mp howner) (owner_eq_none.mp howner'.symm) hname'
  exact absurd hboth (by simp [hother d hd])

theorem Select.sortsBy_item
    (hq : q.Lists (inSight (s.table :: s.joins) [])
      (Target.written (inSight (s.table :: s.joins) []) s.targets))
    (hi : Item.Regroups ⟨t.expr.tree (inSight (s.table :: s.joins) []), t.order.suffix⟩ i) :
    s.SortsBy q t i := by
  obtain ⟨hsuffix, hterm⟩ := hi
  refine ⟨hsuffix.symm, hterm, fun c hc hproper => ?_, sortKey_of_free hq hterm,
    fun _ hcaptured => sortKey_of_captured hq hterm hcaptured⟩
  obtain ⟨d, hresolve, hsame⟩ := hproper.resolves
  change (t.expr.tree (inSight (s.table :: s.joins) [])).Regroups i.term at hterm
  rw [hc] at hterm
  exact ⟨_, d, hterm.of_column, hresolve, hsame⟩

end Sorted

/-- The text of a select is read with the order it was built with. -/
theorem Select.listed_sorts {s : Select} {l : Listed} (h : s.listed [] = .ok l) :
    ∃ q, readSelect l.1.words = some q ∧ List.Forall₂ (s.SortsBy q) s.sorting q.sorting := by
  obtain ⟨q, hread, hsame⟩ := Select.listed_reads h
  obtain ⟨hentries, hsorting⟩ := hsame.parts
  have hlists := Query.lists_of_regroups hentries
  refine ⟨q, hread, (List.forall₂_map_left_iff.mp hsorting).imp fun t i hi => ?_⟩
  exact Select.sortsBy_item hlists hi

/-- Every term of the order is sorted by as it was built, except a column that is written bare under the name
of an output for another term: that one is sorted by the term of the output. -/
theorem Select.sorts_by (s : Select) (r : Rendered) (h : (Statement.select s).render = .ok r) :
    ∃ q, readSelect r.body.words = some q ∧ List.Forall₂ (s.SortsBy q) s.sorting q.sorting := by
  rw [Statement.render_eq] at h
  obtain ⟨l, hl, rfl⟩ := map_eq_ok.mp h
  exact Select.listed_sorts hl

/-- Sorted by a column named like the output of another one, and by that column as well. -/
theorem Select.sorts_by_captured :
    let table : Table := .ofColumns "t" [("id", limitType), ("_0", limitType)]
    let id : Expr := .column ⟨"t", "id", limitType⟩
    let s : Select := ⟨table, [], [⟨"id", id, limitType⟩], [],
      [⟨.column ⟨"t", "_0", limitType⟩, .ascending⟩, ⟨id, .descending⟩], none, none⟩
    ∃ r q, (Statement.select s).render = .ok r ∧ readSelect r.body.words = some q ∧
      List.Forall₂ (s.SortsBy q) s.sorting q.sorting := by
  intro table id s
  obtain ⟨r, hr⟩ : ∃ r, (Statement.select s).render = .ok r := ⟨_, rfl⟩
  obtain ⟨q, hq, hsorted⟩ := Select.sorts_by s r hr
  exact ⟨r, q, hr, hq, hsorted⟩

/-- A column named like the output of another one: the text says to sort by that other column. -/
theorem Select.sorted_by_another :
    let id : Column := ⟨"t", "id", limitType⟩
    let other : Column := ⟨"t", "_0", limitType⟩
    let s : Select := ⟨.ofColumns "t" [("id", limitType), ("_0", limitType)], [],
      [⟨"id", .column id, limitType⟩], [], [⟨.column other, .ascending⟩], none, none⟩
    other.same id = false ∧ ∃ r q i, (Statement.select s).render = .ok r ∧
      r.sql = "SELECT id AS _0 FROM t ORDER BY _0" ∧ readSelect r.body.words = some q ∧
      q.sorting = [i] ∧ i.term = .column none other.name ∧ q.sortKey i = .column none id.name := by
  intro id other s
  have htext : (Statement.select s).render.toOption.map Rendered.sql =
      some "SELECT id AS _0 FROM t ORDER BY _0" := by decide +kernel
  obtain ⟨r, hr⟩ : ∃ r, (Statement.select s).render = .ok r := ⟨_, rfl⟩
  rw [hr] at htext
  have hlisted := hr
  rw [Statement.render_eq] at hlisted
  obtain ⟨l, hl, rfl⟩ := map_eq_ok.mp hlisted
  obtain ⟨q, hread, hsorted⟩ := Select.listed_sorts hl
  obtain ⟨i, items, hi, hnone, hitems⟩ := List.forall₂_cons_left_iff.mp hsorted
  cases hnone
  have hcaptured : s.Captured (.column other) ⟨"id", .column id, limitType⟩ := by
    refine ⟨other, 0, rfl, rfl, rfl, rfl, ?_⟩
    rintro d ⟨⟩
    rfl
  have hbare : i.term = .column none other.name := hi.term.of_column
  have hkey : q.sortKey i = .column none id.name := (hi.other _ hcaptured).1.of_column
  exact ⟨rfl, _, q, i, hr, Option.some.inj htext, hread, hitems, hbare, hkey⟩

end TypedSql.Sql

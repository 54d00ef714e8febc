import TypedSql.Proofs.Sql.Targets
import TypedSql.Proofs.Sql.Templates

/-! The text of a statement comes from its template, never from the values of its parameters. -/
namespace TypedSql.Sql

section Lists

variable {vis : List Column} {targets targets' : List Target}

/-- A target stands at a place of a list, with the text it is rendered to. -/
def Target.Stands (vis : List Column) (targets : List Target) (place : Nat) (f : Fragment) : Prop :=
  ∃ t, targets[place]? = some t ∧ t.expr.pieces vis = .ok f

/-- A target has the text of one before it, and shares its output. -/
def Target.Folds (vis : List Column) (targets : List Target) (i j : Nat) : Prop :=
  i < j ∧ ∃ f g, Target.Stands vis targets i f ∧ Target.Stands vis targets j g ∧ f.same g = true

theorem Entry.mem_ofTexts {es : List (Target × Fragment)} {e : Entry} :
    e ∈ ofTexts es ↔ es[e.place]? = some e.written := by
  obtain ⟨place, target, text⟩ := e
  rw [ofTexts, List.mem_iff_getElem?]
  constructor
  · rintro ⟨i, hi⟩
    obtain ⟨e, he, heq⟩ := Option.map_eq_some_iff.mp (List.getElem?_mapIdx.symm.trans hi)
    cases heq
    exact he
  · intro h
    refine ⟨place, ?_⟩
    rw [List.getElem?_mapIdx, h]
    rfl

theorem Target.stands_iff {es : List (Target × Fragment)} (h : Target.entries vis targets = .ok es)
    {place : Nat} {f : Fragment} :
    Target.Stands vis targets place f ↔ ∃ e ∈ Entry.ofTexts es, e.place = place ∧ e.text = f := by
  have htargets := Target.entries_targets h
  constructor
  · rintro ⟨t, ht, hf⟩
    rw [← htargets, List.getElem?_map] at ht
    obtain ⟨⟨_, g⟩, he, rfl⟩ := Option.map_eq_some_iff.mp ht
    have hg := (Target.entries_mem h (List.mem_of_getElem? he)).2
    obtain rfl : g = f := Except.ok.inj (hg.symm.trans hf)
    exact ⟨⟨place, _, g⟩, Entry.mem_ofTexts.mpr he, rfl, rfl⟩
  · rintro ⟨e, he, rfl, rfl⟩
    have hmem := Entry.mem_ofTexts.mp he
    refine ⟨e.target, ?_, (Target.entries_mem h (List.mem_of_getElem? hmem)).2⟩
    rw [← htargets, List.getElem?_map, hmem]
    rfl

/-- An entry stands first if it folds into none before it. -/
theorem Entry.mem_firsts_iff {es : List (Target × Fragment)} (h : Target.entries vis targets = .ok es)
    {e : Entry} (he : e ∈ ofTexts es) :
    (!(ofTexts es).any fun d => d.place < e.place && d.text.same e.text) = true ↔
      ∀ i, ¬ Target.Folds vis targets i e.place := by
  rw [Bool.not_eq_true', List.any_eq_false]
  constructor
  · rintro hnone i ⟨hlt, f, g, hf, hg, hsame⟩
    obtain ⟨d, hd, rfl, rfl⟩ := (Target.stands_iff h).mp hf
    obtain ⟨e', he', hplace, rfl⟩ := (Target.stands_iff h).mp hg
    obtain rfl := (placed_of_places (ofTexts_places es)).eq_of_place he' he hplace
    exact hnone d hd (by simp [hlt, hsame])
  · intro hnone d hd hfold
    rw [Bool.and_eq_true, decide_eq_true_eq] at hfold
    exact hnone d.place ⟨hfold.1, d.text, e.text, (Target.stands_iff h).mpr ⟨d, hd, rfl, rfl⟩,
      (Target.stands_iff h).mpr ⟨e, he, rfl, rfl⟩, hfold.2⟩

/-- The place of an entry, and what the template tells of its text. -/
def Entry.key (e : Entry) : Nat × Fragment := (e.place, e.text.template)

private theorem keys_ofTexts (es : List (Target × Fragment)) :
    (Entry.ofTexts es).map Entry.key = (es.map fun e => e.2.template).mapIdx Prod.mk := by
  refine List.ext_getElem? fun i => ?_
  simp [Entry.ofTexts, Entry.key, Function.comp_def]

open Classical in
private theorem firsts_keys {es : List (Target × Fragment)} (h : Target.entries vis targets = .ok es) :
    (Entry.firsts (Entry.ofTexts es)).map Entry.key =
      ((Entry.ofTexts es).map Entry.key).filter fun k => ∀ i, ¬ Target.Folds vis targets i k.1 := by
  rw [List.filter_map, Entry.firsts]
  congr 1
  refine List.filter_congr fun e he => ?_
  rw [Bool.eq_iff_iff, Entry.mem_firsts_iff h he, Function.comp_apply, decide_eq_true_eq, Entry.key]

private theorem forall₂_of_map {α β : Type} {template : α → β} {items items' : List α}
    (h : items.map template = items'.map template) :
    List.Forall₂ (fun i i' => template i = template i') items items' := by
  rwa [← List.forall₂_eq_eq_eq, List.forall₂_map_left_iff, List.forall₂_map_right_iff] at h

private theorem entries_alike (h : targets.map Target.template = targets'.map Target.template) :
    Agree (List.map fun e : Target × Fragment => e.2.template) (Target.entries vis targets)
      (Target.entries vis targets') := by
  refine .mapM ((forall₂_of_map h).imp fun t t' ht => ?_)
  have hexpr : t.expr.template = t'.expr.template := congrArg Target.expr ht
  exact (Expr.pieces_alike hexpr vis).map fun f f' hf => hf

/-- Lists that fold the same targets keep the same. -/
private theorem kept_alike {es es' : List (Target × Fragment)} (hes : Target.entries vis targets = .ok es)
    (hes' : Target.entries vis targets' = .ok es')
    (h : targets.map Target.template = targets'.map Target.template)
    (hfolds : ∀ i j, Target.Folds vis targets i j ↔ Target.Folds vis targets' i j) :
    ((Target.kept [] es).map Prod.snd).map Fragment.template =
      ((Target.kept [] es').map Prod.snd).map Fragment.template := by
  have hkept {targets : List Target} {es : List (Target × Fragment)}
      (h : Target.entries vis targets = .ok es) :
      ((Target.kept [] es).map Prod.snd).map Fragment.template =
        ((Entry.firsts (Entry.ofTexts es)).map Entry.key).map Prod.snd := by
    have htexts := Entry.kept_texts (Entry.placed_of_places (Entry.ofTexts_places es))
    rw [Entry.ofTexts_written] at htexts
    rw [htexts, List.map_map, List.map_map]
    rfl
  rw [hkept hes, hkept hes', firsts_keys hes, firsts_keys hes', keys_ofTexts, keys_ofTexts,
    entries_alike h es es' hes hes']
  congr 1
  exact List.filter_congr fun k _ => decide_eq_decide.mpr (forall_congr' fun i => not_congr (hfolds i k.1))

private theorem listRest_template (index : Nat) (fs : List Fragment) :
    (listRest index fs).template = listRest index (fs.map Fragment.template) := by
  induction fs generalizing index with
  | nil => rfl
  | cons f fs ih => simp [listRest, namedPieces, ih, Piece.template]

private theorem listPieces_template (fs : List Fragment) :
    (listPieces true 0 fs).template = listPieces true 0 (fs.map Fragment.template) := by
  cases fs with
  | nil => rfl
  | cons f fs => simp [listPieces, namedPieces, listRest_template, Piece.template]

private theorem Target.listed_alike (h : targets.map template = targets'.map template)
    (hfolds : ∀ i j, Folds vis targets i j ↔ Folds vis targets' i j) :
    Agree (fun l : Listed => l.1.template) (listed vis targets) (listed vis targets') := by
  intro l l' hl hl'
  obtain ⟨es, hes, rfl⟩ := map_eq_ok.mp hl
  obtain ⟨es', hes', rfl⟩ := map_eq_ok.mp hl'
  simp only [listPieces_template, kept_alike hes hes' h hfolds]

private theorem returningPieces_alike (h : targets.map Target.template = targets'.map Target.template)
    (hfolds : ∀ i j, Target.Folds vis targets i j ↔ Target.Folds vis targets' i j) :
    Agree (fun l : Listed => l.1.template) (returningPieces vis targets) (returningPieces vis targets') := by
  have hempty : targets.isEmpty = targets'.isEmpty := by
    simpa using congrArg List.isEmpty h
  rw [returningPieces, returningPieces, ← hempty]
  cases targets.isEmpty with
  | true => exact .refl _
  | false => exact (Target.listed_alike h hfolds).map fun l l' hl => by simp [Listed.behind, hl]

end Lists

section Parts

variable {vis : List Column}

private theorem each_alike {α : Type} {template : α → α} {pieces : α → Except Error Fragment}
    {items items' : List α} (h : items.map template = items'.map template)
    (hpieces : ∀ i i', template i = template i' → Alike (pieces i) (pieces i')) :
    List.Forall₂ Alike (items.map pieces) (items'.map pieces) := by
  rw [List.forall₂_map_left_iff, List.forall₂_map_right_iff]
  exact (forall₂_of_map h).imp hpieces

private theorem conjuncts_alike {filters filters' : List Expr}
    (h : filters.map Expr.template = filters'.map Expr.template) :
    List.Forall₂ Alike (filters.map (Expr.conjunctPieces vis)) (filters'.map (Expr.conjunctPieces vis)) := by
  refine each_alike h fun e e' he => ?_
  refine Expr.conjunctPieces_alike (fun parent chains => ?_) (Expr.pieces_alike he vis)
  rw [← e.template_needsParentheses, he, e'.template_needsParentheses]

private theorem filtersPieces_alike {filters filters' : List Expr}
    (h : filters.map Expr.template = filters'.map Expr.template) :
    Alike (filtersPieces vis filters) (filtersPieces vis filters') :=
  wherePieces_alike (conjuncts_alike h)

private theorem assignmentsPieces_alike {assignments assignments' : List Assignment}
    (h : assignments.map Assignment.template = assignments'.map Assignment.template) :
    Alike (assignmentsPieces vis assignments) (assignmentsPieces vis assignments') := by
  refine .separated (each_alike h fun a a' ha => ?_)
  obtain ⟨hcolumn, hexpr⟩ := Assignment.mk.inj ha
  rw [Assignment.pieces, Assignment.pieces, hcolumn]
  exact (Expr.pieces_alike hexpr vis).map fun f f' hf => by simp [hf]

private theorem find?_template (row : List Assignment) (c : Column) :
    Assignment.find? (row.map Assignment.template) c = (Assignment.find? row c).map Expr.template := by
  rw [Assignment.find?, Assignment.find?, List.find?_map, Option.map_map, Option.map_map]
  rfl

private theorem rowPieces_alike {row row' : List Assignment} (columns : List Column)
    (h : row.map Assignment.template = row'.map Assignment.template) :
    Alike (rowPieces vis columns row) (rowPieces vis columns row') := by
  have hvalue (row : List Assignment) (c : Column) : ((Assignment.find? row c).getD .default).template =
      (Assignment.find? (row.map Assignment.template) c).getD .default := by
    rw [find?_template]
    cases Assignment.find? row c <;> rfl
  have hvalues : List.Forall₂ Alike
      (columns.map fun c => ((Assignment.find? row c).getD .default).pieces vis)
      (columns.map fun c => ((Assignment.find? row' c).getD .default).pieces vis) := by
    rw [List.forall₂_map_left_iff, List.forall₂_map_right_iff, List.forall₂_same]
    exact fun c _ => Expr.pieces_alike (by rw [hvalue, hvalue, h]) vis
  exact (Alike.separated hvalues).map fun f f' hf => by simp [hf]

private theorem Insert.columns_template (i : Insert) : i.template.columns = i.columns := by
  refine List.filter_congr fun c _ => ?_
  rw [template, List.any_map]
  congr 1
  funext row
  rw [Function.comp_apply, find?_template, Option.isSome_map]

private theorem OnConflict.pieces_alike {c c' : OnConflict} (t : Table) (h : c.template = c'.template) :
    Alike (c.pieces vis t) (c'.pieces vis t) := by
  obtain ⟨target, action⟩ := c
  obtain ⟨target', action'⟩ := c'
  obtain ⟨rfl, haction⟩ := OnConflict.mk.inj h
  have hactions : Alike (action.pieces vis t) (action'.pieces vis t) := by
    cases action with
    | nothing =>
      cases action' with
      | nothing => exact .refl _
      | update assignments' filters' => cases haction
    | update assignments filters =>
      cases action' with
      | nothing => cases haction
      | update assignments' filters' =>
        obtain ⟨hassignments, hfilters⟩ := ConflictAction.update.inj haction
        refine (assignmentsPieces_alike hassignments).bind fun f f' hf => ?_
        exact (filtersPieces_alike hfilters).bind fun g g' hg => .ok (by simp [hf, hg])
  have htarget : Alike (OnConflict.targetPieces ⟨target, action⟩)
    (OnConflict.targetPieces ⟨target, action'⟩) := .refl (OnConflict.targetPieces ⟨target, action⟩)
  refine .checked (htarget.bind fun f f' hf => .checked (hactions.bind fun g g' hg => .ok ?_))
  simp [hf, hg]

private theorem conflictPieces_alike {conflict conflict' : Option OnConflict} (t : Table)
    (h : conflict.map OnConflict.template = conflict'.map OnConflict.template) :
    Alike (conflictPieces vis t conflict) (conflictPieces vis t conflict') := by
  cases conflict with
  | none =>
    cases conflict' with
    | none => exact .refl _
    | some c' => cases h
  | some c =>
    cases conflict' with
    | none => cases h
    | some c' => exact OnConflict.pieces_alike t (Option.some.inj h)

end Parts

section Statements

/-- A target of a statement has the text of one before it, and shares its output. -/
def Statement.Folds (s : Statement) : Nat → Nat → Prop := Target.Folds (inSight s.tables []) s.targets

private theorem Select.listed_alike {s s' : Select} (h : s.template = s'.template)
    (hfolds : ∀ i j, (Statement.select s).Folds i j ↔ (Statement.select s').Folds i j) :
    Agree (fun l : Listed => l.1.template) (s.listed []) (s'.listed []) := by
  obtain ⟨table, joins, targets, filters, sorting, lock, limit⟩ := s
  obtain ⟨table', joins', targets', filters', sorting', lock', limit'⟩ := s'
  simp only [template, Select.mk.injEq, Target.allTemplates_eq, Expr.allTemplates_eq,
    SortTerm.allTemplates_eq] at h
  obtain ⟨rfl, rfl, htargets, hfilters, hsorting, rfl, hlimit⟩ := h
  have hlimit : limit.isSome = limit'.isSome := by simpa using congrArg Option.isSome hlimit
  have hsorted := each_alike hsorting fun t t' ht => by
    obtain ⟨hexpr, horder⟩ := SortTerm.mk.inj ht
    exact SortTerm.pieces_alike horder (Expr.pieces_alike hexpr (inSight (table :: joins) []))
  refine .checked ((Target.listed_alike htargets hfolds).bind fun l l' hl => ?_)
  refine (clausePieces_alike (table :: joins) lock (conjuncts_alike hfilters) hsorted hlimit).bind
    fun g g' hg => .ok ?_
  simp [Listed.before, Listed.behind, hl, hg]

private theorem Insert.listed_alike {i i' : Insert} (h : i.template = i'.template)
    (hfolds : ∀ j k, (Statement.insert i).Folds j k ↔ (Statement.insert i').Folds j k) :
    Agree (fun l : Listed => l.1.template) i.listed i'.listed := by
  have hcolumns : i'.columns = i.columns := by rw [← i.columns_template, h, i'.columns_template]
  rw [listed, listed, hcolumns]
  generalize i.columns = columns
  obtain ⟨table, rows, conflict, returning⟩ := i
  obtain ⟨table', rows', conflict', returning'⟩ := i'
  obtain ⟨rfl, hrows, hconflict, hreturning⟩ := Insert.mk.inj h
  have hnames : Alike (namesPieces columns) (namesPieces columns) := .refl _
  refine .checked (hnames.bind fun f f' hf => ?_)
  refine (Alike.separated (each_alike hrows fun row row' => rowPieces_alike columns)).bind fun g g' hg => ?_
  refine (conflictPieces_alike table hconflict).bind fun k k' hk => ?_
  exact (returningPieces_alike hreturning hfolds).bind fun l l' hl => .ok (by
    simp [Listed.behind, hf, hg, hk, hl])

private theorem Update.listed_alike {u u' : Update} (h : u.template = u'.template)
    (hfolds : ∀ j k, (Statement.update u).Folds j k ↔ (Statement.update u').Folds j k) :
    Agree (fun l : Listed => l.1.template) u.listed u'.listed := by
  obtain ⟨table, sources, assignments, filters, returning⟩ := u
  obtain ⟨table', sources', assignments', filters', returning'⟩ := u'
  obtain ⟨rfl, rfl, hassignments, hfilters, hreturning⟩ := Update.mk.inj h
  have hsources : Alike (sourcesPieces " FROM " sources) (sourcesPieces " FROM " sources) := .refl _
  refine .checked ((assignmentsPieces_alike hassignments).bind fun f f' hf => hsources.bind fun g g' hg => ?_)
  refine (filtersPieces_alike hfilters).bind fun k k' hk => ?_
  exact (returningPieces_alike hreturning hfolds).bind fun l l' hl => .ok (by
    simp [Listed.behind, hf, hg, hk, hl])

private theorem Delete.listed_alike {d d' : Delete} (h : d.template = d'.template)
    (hfolds : ∀ j k, (Statement.delete d).Folds j k ↔ (Statement.delete d').Folds j k) :
    Agree (fun l : Listed => l.1.template) d.listed d'.listed := by
  obtain ⟨table, sources, filters, returning⟩ := d
  obtain ⟨table', sources', filters', returning'⟩ := d'
  obtain ⟨rfl, rfl, hfilters, hreturning⟩ := Delete.mk.inj h
  have hsources : Alike (sourcesPieces " USING " sources) (sourcesPieces " USING " sources) := .refl _
  refine .checked (hsources.bind fun g g' hg => (filtersPieces_alike hfilters).bind fun k k' hk => ?_)
  exact (returningPieces_alike hreturning hfolds).bind fun l l' hl => .ok (by
    simp [Listed.behind, hg, hk, hl])

private theorem Statement.listed_alike {s s' : Statement} (h : s.template = s'.template)
    (hfolds : ∀ i j, s.Folds i j ↔ s'.Folds i j) :
    Agree (fun l : Listed => l.1.template) s.listed s'.listed := by
  cases s with
  | select s =>
    cases s' with
    | select s' => exact Select.listed_alike (Statement.select.inj h) hfolds
    | insert i' | update u' | delete d' => cases h
  | insert i =>
    cases s' with
    | insert i' => exact Insert.listed_alike (Statement.insert.inj h) hfolds
    | select s' | update u' | delete d' => cases h
  | update u =>
    cases s' with
    | update u' => exact Update.listed_alike (Statement.update.inj h) hfolds
    | select s' | insert i' | delete d' => cases h
  | delete d =>
    cases s' with
    | delete d' => exact Delete.listed_alike (Statement.delete.inj h) hfolds
    | select s' | insert i' | update u' => cases h

/-- Statements that differ in the values of their parameters only are rendered to the same text, with
parameters of the same types one by one, if the same targets fold: no value reaches the text. -/
theorem Statement.sql_of_template (s s' : Statement) (r r' : Rendered) (h : s.render = .ok r)
    (h' : s'.render = .ok r') (htemplate : s.template = s'.template)
    (hfolds : ∀ i j, s.Folds i j ↔ s'.Folds i j) :
    r.sql = r'.sql ∧ r.params.map Parameter.type = r'.params.map Parameter.type := by
  rw [Statement.render_eq] at h h'
  obtain ⟨l, hl, rfl⟩ := map_eq_ok.mp h
  obtain ⟨l', hl', rfl⟩ := map_eq_ok.mp h'
  have hbody : l.1.template = l'.1.template := Statement.listed_alike htemplate hfolds l l' hl hl'
  constructor
  · calc l.1.sql = l.1.template.sql := l.1.template_sql.symm
      _ = l'.1.template.sql := by rw [hbody]
      _ = l'.1.sql := l'.1.template_sql
  · calc l.1.params.map Parameter.type = l.1.template.params.map Parameter.type := l.1.template_types.symm
      _ = l'.1.template.params.map Parameter.type := by rw [hbody]
      _ = l'.1.params.map Parameter.type := l'.1.template_types

/-- A value that reads like a statement, in two targets that share an output and in a list. -/
theorem Statement.sql_of_template_shared :
    let name : Column := ⟨"t", "name", .builtin .text true⟩
    let s (v : Value) (limit : Int64) : Statement :=
      .select ⟨.ofColumns "t" [("name", name.type)], [],
        [⟨"a", .value name v, name.type⟩, ⟨"b", .value name v, name.type⟩], [.inList name [v]], [], none,
        some limit⟩
    ∃ r r', (s (.scalar (.text "x; DROP TABLE t")) 5).render = .ok r ∧ (s .null 7).render = .ok r' ∧
      r.sql = r'.sql ∧ r.params.map Parameter.type = r'.params.map Parameter.type := by
  intro name s
  have hfolds (v : Value) (limit : Int64) (f : Fragment) (hf : bindPieces name.type v = .ok f)
      (hsame : f.same f = true) (i j : Nat) : (s v limit).Folds i j ↔ i = 0 ∧ j = 1 := by
    constructor
    · rintro ⟨hlt, -, -, -, ⟨t, ht, -⟩, -⟩
      have hj : j < 2 := (List.getElem?_eq_some_iff.mp ht).1
      omega
    · rintro ⟨rfl, rfl⟩
      exact ⟨Nat.zero_lt_one, f, f, ⟨_, rfl, hf⟩, ⟨_, rfl, hf⟩, hsame⟩
  have hrender : (s (.scalar (.text "x; DROP TABLE t")) 5).render = .ok _ := rfl
  have hrender' : (s .null 7).render = .ok _ := rfl
  exact ⟨_, _, hrender, hrender', Statement.sql_of_template _ _ _ _ hrender hrender' rfl fun i j =>
    (hfolds _ _ _ rfl (by decide) i j).trans (hfolds _ _ _ rfl (by decide) i j).symm⟩

end Statements

end TypedSql.Sql

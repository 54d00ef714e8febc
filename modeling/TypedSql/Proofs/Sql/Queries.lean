import TypedSql.Proofs.Sql.Reading

/-! Texts that the reference grammar reads as lists, clauses and selects. -/
namespace TypedSql.Sql

/-- The clause a word starts, in the order of the clauses; a closing parenthesis ends the last one. -/
def Word.clause : Word → Option Nat
  | .source => some 0
  | .condition => some 1
  | .sorting => some 2
  | .lock => some 3
  | .bound => some 4
  | .closing => some 5
  | _ => none

/-- Nothing, or a clause not before the given one. -/
def Ends (k : Nat) (ws : List Word) : Prop := ∀ w ∈ ws.head?, ∃ n, w.clause = some n ∧ k ≤ n

theorem Ends.nil (k : Nat) : Ends k [] := nofun

theorem Ends.earlier {k n : Nat} {ws : List Word} (h : Ends n ws) (hk : k ≤ n) : Ends k ws := by
  intro w hw
  obtain ⟨m, hm, hn⟩ := h w hw
  exact ⟨m, hm, hk.trans hn⟩

theorem Ends.closing {k : Nat} (hk : k ≤ 5) (ws : List Word) : Ends k (.closing :: ws) := by
  intro w hw
  cases hw
  exact ⟨5, rfl, hk⟩

theorem Ends.stops {k : Nat} {ws : List Word} (h : Ends k ws) (r : Rank) : Stops r ws := by
  intro w hw
  obtain ⟨n, hn, -⟩ := h w hw
  cases w <;> first | rfl | cases hn

theorem Ends.ne_cons {k : Nat} {ws : List Word} (h : Ends k ws) {w : Word}
    (hw : ∀ n, w.clause = some n → n < k) (rest : List Word) : ws ≠ w :: rest := by
  rintro rfl
  obtain ⟨n, hn, hk⟩ := h w rfl
  exact absurd (hw n hn) (by omega)

def Suffix.words : Suffix → List Word
  | .none => []
  | .named n => [.label, .name n]
  | .descending => [.descending]

/-- Names belong to entries, directions to sorted terms. -/
def Suffix.Fits : Place → Suffix → Prop
  | _, .none => True
  | .entry, .named _ => True
  | .sorting, .descending => True
  | _, _ => False

/-- The same item but for how chains are grouped. -/
def Item.Regroups (i j : Item) : Prop := i.suffix = j.suffix ∧ i.term.Regroups j.term

/-- A text that is read as an item of a list. -/
def Item.Reads (p : Place) (i : Item) (f : Fragment) : Prop :=
  ∃ ws, f.words = ws ++ i.suffix.words ∧ Sql.Reads .disjunction i.term ws ∧ i.suffix.Fits p

theorem Tree.Regroups.items {k : List Item → Tree}
    (hk : ∀ before a a' suffix behind, Regroup a a' →
      Regroup (k (before ++ ⟨a, suffix⟩ :: behind)) (k (before ++ ⟨a', suffix⟩ :: behind)))
    {is js : List Item} (h : List.Forall₂ Item.Regroups is js) : (k is).Regroups (k js) := by
  have hall (before : List Item) : (k (before ++ is)).Regroups (k (before ++ js)) := by
    induction h generalizing before with
    | nil => exact .refl _
    | @cons i j is js hij _ ih =>
      obtain ⟨a, suffix⟩ := i
      obtain ⟨a', suffix'⟩ := j
      obtain ⟨rfl, ha⟩ := hij
      have hfirst := ha.lift (k := fun t => k (before ++ ⟨t, suffix⟩ :: is))
        fun a a' => hk before a a' suffix is
      have hrest := ih (before ++ [⟨a', suffix⟩])
      rw [List.append_assoc, List.append_assoc] at hrest
      exact hfirst.trans hrest
  exact hall []

theorem readSuffix_words {p : Place} {suffix : Suffix} (h : suffix.Fits p) {rest : List Word}
    (hrest : (∃ ws, rest = .comma :: ws) ∨ Ends 0 rest) :
    readSuffix p (suffix.words ++ rest) = (suffix, rest) := by
  cases suffix with
  | named n => cases p <;> first | rfl | cases h
  | descending => cases p <;> first | rfl | cases h
  | none =>
    rcases hrest with ⟨ws, rfl⟩ | hrest
    · cases p <;> rfl
    · rw [Suffix.words, List.nil_append, readSuffix]
      · rintro n ws - rfl
        exact hrest.ne_cons (w := .label) nofun _ rfl
      · rintro ws - rfl
        exact hrest.ne_cons (w := .descending) nofun _ rfl

private theorem suffix_stops {suffix : Suffix} {rest : List Word}
    (hrest : (∃ ws, rest = .comma :: ws) ∨ Ends 0 rest) :
    Stops .disjunction (suffix.words ++ rest) := by
  cases suffix with
  | none =>
    rcases hrest with ⟨ws, rfl⟩ | hrest
    · intro w hw; cases hw; rfl
    · exact hrest.stops _
  | named n => intro w hw; cases hw; rfl
  | descending => intro w hw; cases hw; rfl

private theorem readItem_words {p : Place} {i : Item} {f : Fragment} (h : i.Reads p f)
    {rest : List Word} (hrest : (∃ ws, rest = .comma :: ws) ∨ Ends 0 rest) :
    ∃ j, i.Regroups j ∧ readItem p (f.words ++ rest) = some (j, rest) := by
  obtain ⟨ws, hws, hread, hfits⟩ := h
  obtain ⟨t', hread, ht⟩ := hread.read (i.suffix.words ++ rest) (suffix_stops hrest)
  refine ⟨⟨t', i.suffix⟩, ⟨rfl, ht⟩, ?_⟩
  rw [hws, List.append_assoc, readItem, hread]
  simp only [Option.bind_eq_bind, Option.bind_some, readSuffix_words hfits hrest]
  rfl

theorem readItems_joined {p : Place} {is : List Item} {fs : List Fragment}
    (h : List.Forall₂ (Item.Reads p) is fs) (hne : is ≠ []) {rest : List Word} (hrest : Ends 0 rest) :
    ∃ js, readItems p ((joined ", " fs).words ++ rest) = some (js, rest) ∧
      List.Forall₂ Item.Regroups is js := by
  induction h with
  | nil => exact absurd rfl hne
  | @cons i f is fs hi his ih =>
    cases his with
    | nil =>
      obtain ⟨j, hij, hread⟩ := readItem_words hi (.inr hrest)
      refine ⟨[j], ?_, .cons hij .nil⟩
      rw [joined, readItems, hread]
      simp only [Option.bind_eq_bind, Option.bind_some]
      split
      · exact absurd rfl (hrest.ne_cons (w := .comma) (by simp [Word.clause]) _)
      · rfl
    | @cons i' f' is fs hi' his =>
      obtain ⟨js, hjs, hsame⟩ := ih (List.cons_ne_nil _ _)
      obtain ⟨j, hij, hread⟩ := readItem_words hi
        (.inl ⟨(joined ", " (f' :: fs)).words ++ rest, rfl⟩)
      refine ⟨j :: js, ?_, .cons hij hsame⟩
      have hcomma : Piece.words (.text ", ") = [.comma] := rfl
      rw [joined_cons_cons, Fragment.words_append, Fragment.words_cons, hcomma, List.append_assoc,
        List.append_assoc, List.singleton_append, readItems, hread]
      simp only [Option.bind_eq_bind, Option.bind_some, hjs]
      exact if_pos (by simp only [List.length_append, List.length_cons]; omega)

/-- A text, if there is any, that starts the clause of a number and is read as a part of a query
whatever later clauses follow. -/
structure ReadsClause {α : Type} (k : Nat) (read : List Word → Option (α × List Word))
    (same : α → α → Prop) (a : α) (ws : List Word) : Prop where
  starts : ∀ w ∈ ws.head?, w.clause = some k
  read : ∀ rest, Ends (k + 1) rest → ∃ b, read (ws ++ rest) = some (b, rest) ∧ same a b

theorem ReadsClause.ends {α : Type} {k : Nat} {read : List Word → Option (α × List Word)}
    {same : α → α → Prop} {a : α} {ws : List Word} (h : ReadsClause k read same a ws)
    {rest : List Word} (hrest : Ends (k + 1) rest) : Ends k (ws ++ rest) := by
  cases ws with
  | nil => exact hrest.earlier (Nat.le_succ k)
  | cons w ws =>
    intro v hv
    cases hv
    exact ⟨k, h.starts w rfl, le_rfl⟩

/-- The name of a table and the other name it goes by. -/
def Table.names (t : Table) : String × Option String := (t.name, t.otherName)

private theorem readTables_last (t : Table) {rest : List Word} (hrest : Ends 1 rest) :
    readTables (t.pieces.words ++ rest) = some ([t.names], rest) := by
  have has : Word.ofText " AS " = [.label] := rfl
  have hlabel (ws : List Word) : rest ≠ .label :: ws :=
    hrest.ne_cons (w := .label) (by simp [Word.clause]) ws
  have hcomma (ws : List Word) : rest ≠ .comma :: ws :=
    hrest.ne_cons (w := .comma) (by simp [Word.clause]) ws
  obtain ⟨name, other, members⟩ := t
  cases other with
  | none =>
    have hread : readTables (.name name :: rest) = some ([(name, none)], rest) := by
      rw [readTables, readTable]
      · rfl
      · exact fun _ ws h => hlabel _ h
      · intro n o ws h
        exact hlabel _ (List.cons.inj h).2
      · intro n ws h
        exact hcomma _ (List.cons.inj h).2
    simpa [Table.pieces, Table.names, Piece.words] using hread
  | some other =>
    have hread : readTables (.name name :: .label :: .name other :: rest) =
        some ([(name, some other)], rest) := by
      rw [readTables, readTable]
      · rfl
      · intro n o ws h
        have hrest' := (List.cons.inj (List.cons.inj (List.cons.inj h).2).2).2
        exact hcomma ws hrest'
      · simp
    simpa [Table.pieces, Table.names, Piece.words, has] using hread

private theorem readTables_comma (t : Table) (ws : List Word) :
    readTables (t.pieces.words ++ .comma :: ws) = (do
      let (ts, rest) ← readTables ws
      return (t.names :: ts, rest)) := by
  have has : Word.ofText " AS " = [.label] := rfl
  obtain ⟨name, other, members⟩ := t
  cases other with
  | none => simp [Table.pieces, Table.names, Piece.words, readTables]
  | some other => simp [Table.pieces, Table.names, Piece.words, has, readTables]

private theorem readTables_joined {tables : List Table} (hne : tables ≠ []) {rest : List Word}
    (hrest : Ends 1 rest) : readTables ((joined ", " (tables.map Table.pieces)).words ++ rest) =
      some (tables.map Table.names, rest) := by
  induction tables with
  | nil => exact absurd rfl hne
  | cons t ts ih =>
    cases ts with
    | nil => exact readTables_last t hrest
    | cons t' ts =>
      have hcomma : Piece.words (.text ", ") = [.comma] := rfl
      have hrest' := ih (List.cons_ne_nil _ _)
      rw [List.map_cons] at hrest'
      rw [List.map_cons, List.map_cons, joined_cons_cons, Fragment.words_append, Fragment.words_cons,
        hcomma, List.append_assoc, List.append_assoc, List.singleton_append, readTables_comma, hrest']
      rfl

theorem source_reads {tables : List Table} (hne : tables ≠ []) :
    ReadsClause 0 readSource Eq (tables.map Table.names)
      (.source :: (joined ", " (tables.map Table.pieces)).words) := by
  refine ⟨fun w hw => by cases hw; rfl, fun rest hrest => ⟨_, ?_, rfl⟩⟩
  exact readTables_joined hne hrest

theorem condition_reads {condition : Option Tree} {ws : List Word}
    (h : match condition with
      | none => ws = []
      | some t => ∃ ws', ws = .condition :: ws' ∧ Reads .disjunction t ws') :
    ReadsClause 1 readCondition (Option.Rel Tree.Regroups) condition ws := by
  cases condition with
  | none =>
    subst h
    refine ⟨nofun, fun rest hrest => ⟨none, ?_, .none⟩⟩
    rw [List.nil_append, readCondition]
    exact fun ws hws => hrest.ne_cons (w := .condition) (by rintro n ⟨⟩; decide) ws hws
  | some t =>
    obtain ⟨ws, rfl, h⟩ := h
    refine ⟨fun w hw => by cases hw; rfl, fun rest hrest => ?_⟩
    obtain ⟨t', hread, ht⟩ := h.read rest (hrest.stops _)
    refine ⟨some t', ?_, .some ht⟩
    rw [List.cons_append, readCondition, hread]
    rfl

theorem sorting_reads {sorting : List Item} {ws : List Word}
    (h : (sorting = [] ∧ ws = []) ∨ (sorting ≠ [] ∧ ∃ fs, ws = .sorting :: .key :: (joined ", " fs).words ∧
      List.Forall₂ (Item.Reads .sorting) sorting fs)) :
    ReadsClause 2 readSorting (List.Forall₂ Item.Regroups) sorting ws := by
  rcases h with ⟨rfl, rfl⟩ | ⟨hne, fs, rfl, h⟩
  · refine ⟨nofun, fun rest hrest => ⟨[], ?_, .nil⟩⟩
    rw [List.nil_append, readSorting]
    exact fun ws hws => hrest.ne_cons (w := .sorting) (by rintro n ⟨⟩; decide) _ hws
  · refine ⟨fun w hw => by cases hw; rfl, fun rest hrest => ?_⟩
    rw [List.cons_append, List.cons_append, readSorting]
    exact readItems_joined h hne (hrest.earlier (Nat.zero_le _))

theorem lock_reads (lock : Option Lock) :
    ReadsClause 3 (some ∘ readLock) Eq lock (Fragment.words (lockPieces lock)) := by
  rcases lock with _ | _ | _
  · refine ⟨nofun, fun rest hrest => ⟨none, ?_, rfl⟩⟩
    have hlock (ws : List Word) := hrest.ne_cons (w := .lock) (by rintro n ⟨⟩; decide) ws
    change some (readLock rest) = _
    rw [readLock] <;> exact fun ws => hlock _
  · refine ⟨fun w hw => by cases hw; rfl, fun rest hrest => ⟨_, ?_, rfl⟩⟩
    have hskip (ws : List Word) := hrest.ne_cons (w := .skip) nofun ws
    change some (readLock (.lock :: .update :: rest)) = _
    rw [readLock]
    exact fun ws => hskip _
  · exact ⟨fun w hw => by cases hw; rfl, fun rest hrest => ⟨_, rfl, rfl⟩⟩

theorem limit_reads {limit : Option Slot} {ws : List Word}
    (h : match limit with
      | none => ws = []
      | some slot => ∃ ws', ws = .bound :: ws' ∧ ∀ rest, readSlot (ws' ++ rest) = some (slot, rest)) :
    ReadsClause 4 readLimit Eq limit ws := by
  cases limit with
  | none =>
    subst h
    refine ⟨nofun, fun rest hrest => ⟨none, ?_, rfl⟩⟩
    rw [List.nil_append, readLimit]
    exact fun ws hws => hrest.ne_cons (w := .bound) (by rintro n ⟨⟩; decide) ws hws
  | some slot =>
    obtain ⟨ws, rfl, h⟩ := h
    refine ⟨fun w hw => by cases hw; rfl, fun rest hrest => ⟨some slot, ?_, rfl⟩⟩
    rw [List.cons_append, readLimit, h rest]
    rfl

/-- The same query but for how chains are grouped. -/
def Query.Regroups (q q' : Query) : Prop :=
  ∀ existence, (Tree.nested existence q).Regroups (.nested existence q')

theorem Query.Regroups.mk {entries entries' sorting sorting' : List Item}
    {condition condition' : Option Tree} (tables : List (String × Option String)) (lock : Option Lock)
    (limit : Option Slot) (hentries : List.Forall₂ Item.Regroups entries entries')
    (hcondition : Option.Rel Tree.Regroups condition condition')
    (hsorting : List.Forall₂ Item.Regroups sorting sorting') :
    Query.Regroups ⟨entries, tables, condition, sorting, lock, limit⟩
      ⟨entries', tables, condition', sorting', lock, limit⟩ := by
  intro existence
  have h₁ := Tree.Regroups.items (k := fun is => .nested existence
    ⟨is, tables, condition, sorting, lock, limit⟩) (fun b a a' s r h => .entry b s r h) hentries
  have h₂ := Tree.Regroups.items (k := fun is => .nested existence
    ⟨entries', tables, condition', is, lock, limit⟩) (fun b a a' s r h => .sorted b s r h) hsorting
  refine h₁.trans (.trans ?_ h₂)
  cases hcondition with
  | none => exact .refl _
  | some h => exact h.lift (k := fun t => .nested existence
      ⟨entries', tables, some t, sorting, lock, limit⟩) fun _ _ => .condition

/-- A text that is read as a query wherever a query may end. -/
def Query.Reads (q : Query) (ws : List Word) : Prop :=
  ∀ rest, Ends 5 rest → ∃ q', readQuery (ws ++ rest) = some (q', rest) ∧ q.Regroups q'

theorem Query.reads {entries sorting : List Item} {tables : List (String × Option String)}
    {condition : Option Tree} {lock : Option Lock} {limit : Option Slot} {fs : List Fragment}
    {source filters order locks limits : List Word} (hne : entries ≠ [])
    (hentries : List.Forall₂ (Item.Reads .entry) entries fs)
    (hsource : ReadsClause 0 readSource Eq tables source)
    (hfilters : ReadsClause 1 readCondition (Option.Rel Tree.Regroups) condition filters)
    (horder : ReadsClause 2 readSorting (List.Forall₂ Item.Regroups) sorting order)
    (hlocks : ReadsClause 3 (some ∘ readLock) Eq lock locks)
    (hlimits : ReadsClause 4 readLimit Eq limit limits) :
    Query.Reads ⟨entries, tables, condition, sorting, lock, limit⟩
      ((joined ", " fs).words ++ (source ++ (filters ++ (order ++ (locks ++ limits))))) := by
  intro rest hrest
  have hend₄ := hlimits.ends hrest
  have hend₃ := hlocks.ends hend₄
  have hend₂ := horder.ends hend₃
  have hend₁ := hfilters.ends hend₂
  obtain ⟨_, hlimit, rfl⟩ := hlimits.read rest hrest
  obtain ⟨_, hlock, rfl⟩ := hlocks.read _ hend₄
  obtain ⟨sorting', hsorting, hsame₂⟩ := horder.read _ hend₃
  obtain ⟨condition', hcondition, hsame₁⟩ := hfilters.read _ hend₂
  obtain ⟨_, htables, rfl⟩ := hsource.read _ hend₁
  obtain ⟨entries', hread, hsame₀⟩ := readItems_joined hentries hne (hsource.ends hend₁)
  refine ⟨_, ?_, .mk tables lock limit hsame₀ hsame₁ hsame₂⟩
  simp only [List.append_assoc] at *
  have hlock' := Option.some.inj hlock
  rw [readQuery, hread]
  simp only [Option.bind_eq_bind, Option.bind_some, htables, hcondition, hsorting, hlock', hlimit]
  refine (if_pos ?_).trans (if_pos ?_)
  · simp only [List.length_append]
    omega
  · simp only [List.length_append]
    omega

/-- A call of a function with the terms it is applied to. -/
theorem Reads.call (function : String) {args : List Tree} {fs : List Fragment}
    (h : List.Forall₂ (fun t f => Reads .disjunction t (Fragment.words f)) args fs) :
    Reads .primary (.call function args)
      (.function function :: .opening :: ((joined ", " fs).words ++ [.closing])) := by
  refine ⟨⟨.function function, _, rfl, rfl⟩, fun rest _ => ?_⟩
  have hitems : List.Forall₂ (Item.Reads .argument) (args.map (⟨·, .none⟩)) fs := by
    rw [List.forall₂_map_left_iff]
    exact h.imp fun t f ht => ⟨Fragment.words f, (List.append_nil _).symm, ht, trivial⟩
  have hws : .function function :: .opening :: ((joined ", " fs).words ++ [.closing]) ++ rest =
      .function function :: .opening :: ((joined ", " fs).words ++ .closing :: rest) := by simp
  rw [hws, readAt_primary]
  cases h with
  | nil => exact ⟨.call function [], by rw [joined]; simp [readPrimary], .refl _⟩
  | @cons t f args fs ht hrest =>
    obtain ⟨js, hjs, hsame⟩ := readItems_joined hitems (List.cons_ne_nil _ _)
      (Ends.closing (Nat.zero_le _) rest)
    have hcall := Tree.Regroups.items (k := fun is => .call function (is.map Item.term))
      (fun before a a' suffix behind h => by
        simpa [Item.term] using Tree.Regroup.arg (before.map Item.term) (behind.map Item.term) h) hsame
    have hargs : ((t :: args).map fun t => Item.mk t .none).map Item.term = t :: args := by
      simp [Item.term, Function.comp_def]
    rw [hargs] at hcall
    refine ⟨_, ?_, hcall⟩
    have hleads : Leads .disjunction ((joined ", " (f :: fs)).words ++ .closing :: rest) := by
      cases hrest <;> simpa [joined] using ht.leads.append _
    obtain ⟨w, ws, he, hw⟩ := hleads
    rw [readPrimary, hjs]
    · rfl
    · rw [he]
      rintro ws' h
      cases h
      cases hw

/-- A select in parentheses, and the question whether it has rows. -/
theorem Query.Reads.nested {q : Query} {ws : List Word} (h : q.Reads ws) :
    Sql.Reads .primary (.nested false q) (.opening :: .selection :: (ws ++ [.closing])) ∧
      Sql.Reads .primary (.nested true q) (.existence :: .opening :: .selection :: (ws ++ [.closing])) := by
  constructor
  · refine ⟨⟨.opening, _, rfl, rfl⟩, fun rest _ => ?_⟩
    obtain ⟨q', hread, hq⟩ := h (.closing :: rest) (.closing le_rfl rest)
    refine ⟨.nested false q', ?_, hq false⟩
    have hws : .opening :: .selection :: (ws ++ [.closing]) ++ rest =
        .opening :: .selection :: (ws ++ .closing :: rest) := by simp
    rw [hws, readAt_primary, readPrimary, hread]
    rfl
  · refine ⟨⟨.existence, _, rfl, rfl⟩, fun rest _ => ?_⟩
    obtain ⟨q', hread, hq⟩ := h (.closing :: rest) (.closing le_rfl rest)
    refine ⟨.nested true q', ?_, hq true⟩
    have hws : .existence :: .opening :: .selection :: (ws ++ [.closing]) ++ rest =
        .existence :: .opening :: .selection :: (ws ++ .closing :: rest) := by simp
    rw [hws, readAt_primary, readPrimary, hread]
    rfl

end TypedSql.Sql

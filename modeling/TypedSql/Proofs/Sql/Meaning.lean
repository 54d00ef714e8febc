import TypedSql.Proofs.Sql.Queries
import TypedSql.Proofs.Sql.Writing

/-! Terms are written with enough parentheses: the reference grammar reads back the tree they were
written from, up to how chains are grouped. -/
namespace TypedSql.Sql

/-- What a value bound by a type leaves at its placeholder. -/
def Slot.of (type : TypeRef) (v : Value) : Slot where
  value := (type.encode v).toOption
  type := type
  cast := if type.needsCast then some (castType type.descriptor) else none

/-- The conjunction of some terms, in their order. -/
def Tree.conjunction : List Tree → Option Tree
  | [] => none
  | t :: ts => some (ts.foldl (.binary .and) t)

def Order.suffix : Order → Suffix
  | .ascending => .none
  | .descending => .descending

mutual

/-- The tree of a term whose columns are named as the columns in sight ask for. -/
def Expr.tree (vis : List Column) : Expr → Tree
  | .column c => .column (if (Scope.mk vis []).needsQualification c then some c.owner else none) c.name
  | .param v type => .param (.of type v)
  | .default => .default
  | .bool b => .bool b
  | .call function args => .call function (Expr.trees vis args)
  | .binary op left right => .binary op (left.tree vis) (right.tree vis)
  | .not e => .not (e.tree vis)
  | .nullTest e negated => .nullTest (e.tree vis) negated
  | .within e values element =>
    .member (e.tree vis) (.of (element.arrayOf?.getD element) (.array values))
  | .subquery s => .nested false (s.query vis)
  | .existence s => .nested true (s.query vis)

def Expr.trees (vis : List Column) : List Expr → List Tree
  | [] => []
  | e :: rest => e.tree vis :: Expr.trees vis rest

def Target.items (vis : List Column) : List Target → List Item
  | [] => []
  | ⟨_, e, _⟩ :: rest => ⟨e.tree vis, .none⟩ :: Target.items vis rest

def SortTerm.items (vis : List Column) : List SortTerm → List Item
  | [] => []
  | ⟨e, order⟩ :: rest => ⟨e.tree vis, order.suffix⟩ :: SortTerm.items vis rest

/-- A select within a term; its tables are in sight of all its clauses. -/
def Select.query (vis : List Column) : Select → Query
  | ⟨table, joins, targets, filters, sorting, lock, limit⟩ =>
    ⟨Target.items (inSight (table :: joins) vis) targets, (table :: joins).map Table.names,
      Tree.conjunction (Expr.trees (inSight (table :: joins) vis) filters),
      SortTerm.items (inSight (table :: joins) vis) sorting, lock,
      limit.map fun n => .of limitType (.scalar (.int64 n))⟩

end

@[simp] theorem Expr.trees_eq (vis : List Column) (es : List Expr) :
    Expr.trees vis es = es.map (Expr.tree vis) := by
  induction es with
  | nil => rfl
  | cons e es ih => rw [Expr.trees, ih, List.map_cons]

@[simp] theorem Target.items_eq (vis : List Column) (ts : List Target) :
    Target.items vis ts = ts.map fun t => ⟨t.expr.tree vis, .none⟩ := by
  induction ts with
  | nil => rfl
  | cons t ts ih => obtain ⟨_, _, _⟩ := t; rw [Target.items, ih, List.map_cons]

@[simp] theorem SortTerm.items_eq (vis : List Column) (ts : List SortTerm) :
    SortTerm.items vis ts = ts.map fun t => ⟨t.expr.tree vis, t.order.suffix⟩ := by
  induction ts with
  | nil => rfl
  | cons t ts ih => obtain ⟨_, _⟩ := t; rw [SortTerm.items, ih, List.map_cons]

/-- How tightly a term binds. -/
def Expr.rank : Expr → Rank
  | .binary op _ _ => .ofOperator op
  | .not _ => .negation
  | .nullTest _ _ | .within _ _ _ => .comparison
  | _ => .primary

/-- What a term, written as `f`, is read as: its tree at its own rank, and the link of a chain if it is
one itself. -/
structure Expr.ReadsAs (vis : List Column) (e : Expr) (f : Fragment) : Prop where
  reads : Reads e.rank (e.tree vis) f.words
  chains : ∀ op left right, e = .binary op left right → op ∈ chainOperators →
    Chains op (e.tree vis) f.words

/-- A term whose text, if it has one, is read back as the term. -/
def Expr.ReadsBack (vis : List Column) (e : Expr) : Prop := ∀ f, e.pieces vis = .ok f → e.ReadsAs vis f

theorem Operator.precedence_eq (op : Operator) : op.precedence = (Rank.ofOperator op).level + 1 := by
  cases op <;> rfl

theorem Operator.isAssociative_iff (op : Operator) : op.isAssociative = true ↔ op ∈ chainOperators := by
  cases op <;> decide

private theorem ofText_opening : Word.ofText "(" = [.opening] := rfl
private theorem ofText_closing : Word.ofText ")" = [.closing] := rfl
private theorem ofText_blank : Word.ofText " " = [] := rfl

theorem bindPieces_ok {type : TypeRef} {v : Value} {f : Fragment} (h : bindPieces type v = .ok f) :
    ∃ w, type.encode v = .ok w ∧ f = [.parameter ⟨w, type⟩] := by
  obtain ⟨w, hw, rfl⟩ := map_eq_ok.mp h
  exact ⟨w, hw, rfl⟩

theorem readSlot_bind {type : TypeRef} {v : Value} {f : Fragment} (h : bindPieces type v = .ok f)
    (rest : List Word) : readSlot (f.words ++ rest) = some (.of type v, rest) := by
  obtain ⟨w, hw, rfl⟩ := bindPieces_ok h
  have hvalue : (type.encode v).toOption = some w := by rw [hw]; rfl
  by_cases hc : type.needsCast <;>
    simp [Fragment.words, Piece.words, Slot.of, hc, hvalue, readSlot]

section Operands

variable {vis : List Column} {e : Expr} {f : Fragment}

private theorem words_wrapped (f : Fragment) :
    (wrapped true f).words = .opening :: f.words ++ [.closing] := by
  simp [wrapped, Piece.words, ofText_opening, ofText_closing]

/-- An operand that stands without parentheses binds tighter than its parent, or else chains with it. -/
private theorem unwrapped {parent : Nat} {chains : Operator → Bool}
    (h : e.needsParentheses parent chains = false) (hp : parent ≤ Rank.primary.level) :
    parent ≤ e.rank.level ∨
      ∃ op left right, e = .binary op left right ∧ chains op = true ∧ op.precedence = parent := by
  cases e with
  | binary op left right =>
    have hlevel := op.precedence_eq
    simp only [Expr.needsParentheses, Expr.precedence?, Bool.or_eq_false_iff, decide_eq_false_iff_not,
      Bool.and_eq_false_iff, Bool.not_eq_false'] at h
    simp only [Expr.rank]
    by_cases he : op.precedence = parent
    · exact .inr ⟨op, left, right, rfl, h.2.resolve_left (by simpa using he), he⟩
    · exact .inl (by omega)
  | not e =>
    simp only [Expr.needsParentheses, Expr.precedence?, decide_eq_false_iff_not] at h
    exact .inl (by simp only [Expr.rank, Rank.level, negationPrecedence] at h ⊢; omega)
  | nullTest e negated =>
    simp only [Expr.needsParentheses, Expr.precedence?, decide_eq_false_iff_not] at h
    exact .inl (by simp only [Expr.rank, Rank.level, comparisonPrecedence] at h ⊢; omega)
  | within e values element =>
    simp only [Expr.needsParentheses, Expr.precedence?, decide_eq_false_iff_not] at h
    exact .inl (by simp only [Expr.rank, Rank.level, comparisonPrecedence] at h ⊢; omega)
  | _ => exact .inl hp

/-- The operand of a term that does not chain. -/
private theorem operand_reads (h : e.ReadsAs vis f) {parent : Nat} {r : Rank} (hr : r.level = parent)
    {chains : Operator → Bool} (hchains : ∀ op, op.precedence = parent → chains op = false) :
    Reads r (e.tree vis) (e.operandPieces parent chains f).words := by
  unfold Expr.operandPieces
  cases hw : e.needsParentheses parent chains with
  | true =>
    rw [words_wrapped]
    exact (h.reads.looser (Nat.zero_le _)).parenthesized.primary r
  | false =>
    rcases unwrapped hw (hr ▸ r.level_le_primary) with hlevel | ⟨op, left, right, -, hop, hp⟩
    · exact h.reads.looser (hr ▸ hlevel)
    · rw [hchains op hp] at hop
      cases hop

/-- An operand of an operator that chains. -/
private theorem operand_chains (h : e.ReadsAs vis f) {op : Operator} (hop : op ∈ chainOperators) :
    Chains op (e.tree vis) (e.operandPieces op.precedence op.chains f).words := by
  have hr := Rank.level_next (Rank.ofOperator_ne_primary op)
  have hp := op.precedence_eq
  unfold Expr.operandPieces
  cases hw : e.needsParentheses op.precedence op.chains with
  | true =>
    rw [words_wrapped]
    exact .link hop ((h.reads.looser (Nat.zero_le _)).parenthesized.primary _)
  | false =>
    have hle := (Rank.ofOperator op).next.level_le_primary
    rcases unwrapped hw (by omega) with hlevel | ⟨child, left, right, he, hchild, -⟩
    · exact .link hop (h.reads.looser (by omega))
    · obtain ⟨rfl, -⟩ : child = op ∧ _ := by simpa [Operator.chains] using hchild
      exact h.chains child left right he hop

end Operands

section Clauses

variable {vis : List Column}

private theorem joined_merge (separator : String) (f g : Fragment) (fs : List Fragment) :
    joined separator ((f ++ .text separator :: g) :: fs) = joined separator (f :: g :: fs) := by
  cases fs with
  | nil => rfl
  | cons h fs => simp only [joined_cons_cons, List.append_assoc, List.cons_append]

/-- Conditions with `AND` between them are one chain. -/
private theorem chains_joined {t : Tree} {ts : List Tree} {f : Fragment} {fs : List Fragment}
    (h : Chains .and t f.words) (hs : List.Forall₂ (fun t g => Chains .and t (Fragment.words g)) ts fs) :
    Chains .and (ts.foldl (.binary .and) t) (joined " AND " (f :: fs)).words := by
  induction hs generalizing t f with
  | nil => exact h
  | @cons t' g ts fs ht' _ ih =>
    rw [← joined_merge, List.foldl_cons]
    apply ih
    have hand : Piece.words (.text " AND ") = [.operator .and] := rfl
    have hboth := h.binary (by decide) ht'
    simpa [hand] using hboth

private theorem conjunct_chains {e : Expr} (he : e.ReadsBack vis)
    {f : Fragment} (h : e.conjunctPieces vis = .ok f) : Chains .and (e.tree vis) f.words := by
  obtain ⟨g, hg, rfl⟩ := map_eq_ok.mp h
  exact operand_chains (he g hg) (by decide)

/-- The condition of a clause is the conjunction of its filters. -/
theorem filters_read {e : Expr} {es : List Expr}
    (hf : ∀ e' ∈ e :: es, e'.ReadsBack vis) {f : Fragment}
    (h : wherePieces ((e :: es).map (Expr.conjunctPieces vis)) = .ok f) :
    ∃ g, f = .text " WHERE " :: g ∧
      Reads .disjunction ((es.map (Expr.tree vis)).foldl (.binary .and) (e.tree vis)) (Fragment.words g) := by
  obtain ⟨g, hg, rfl⟩ := map_eq_ok.mp h
  obtain ⟨fs, hfs, rfl⟩ := separatedPieces_ok hg fun e' he' f => conjunct_chains (hf e' he')
  cases hfs with
  | cons hfirst hrest =>
    have hchain := chains_joined hfirst (List.forall₂_map_left_iff.mpr hrest)
    exact ⟨_, rfl, hchain.reads.looser (Nat.zero_le _)⟩

private theorem condition_pieces {filters : List Expr}
    (hf : ∀ e ∈ filters, e.ReadsBack vis) {f : Fragment}
    (h : wherePieces (filters.map (Expr.conjunctPieces vis)) = .ok f) :
    ReadsClause 1 readCondition (Option.Rel Tree.Regroups)
      (Tree.conjunction (filters.map (Expr.tree vis))) f.words := by
  apply condition_reads
  cases filters with
  | nil => cases h; rfl
  | cons e es =>
    obtain ⟨g, rfl, hg⟩ := filters_read hf h
    exact ⟨Fragment.words g, rfl, hg⟩

private theorem sorted_reads {t : SortTerm} (ht : t.expr.ReadsBack vis)
    {f : Fragment} (h : t.pieces vis = .ok f) :
    Item.Reads .sorting ⟨t.expr.tree vis, t.order.suffix⟩ f := by
  obtain ⟨g, hg, rfl⟩ := map_eq_ok.mp h
  refine ⟨g.words, ?_, (ht g hg).reads.looser (Nat.zero_le _), ?_⟩
  · have hdesc : Piece.words (.text " DESC") = [.descending] := rfl
    cases ho : t.order <;> simp [sortPieces, Order.suffix, Suffix.words, Item.suffix, hdesc]
  · cases ho : t.order <;> simp [Order.suffix, Suffix.Fits, Item.suffix]

private theorem sorting_pieces {sorting : List SortTerm}
    (ho : ∀ t ∈ sorting, t.expr.ReadsBack vis) {f : Fragment}
    (h : orderPieces (sorting.map (SortTerm.pieces vis)) = .ok f) :
    ReadsClause 2 readSorting (List.Forall₂ Item.Regroups)
      (sorting.map fun t => ⟨t.expr.tree vis, t.order.suffix⟩) f.words := by
  apply sorting_reads
  cases sorting with
  | nil => cases h; exact .inl ⟨rfl, rfl⟩
  | cons t ts =>
    obtain ⟨g, hg, rfl⟩ := map_eq_ok.mp h
    obtain ⟨fs, hfs, rfl⟩ := separatedPieces_ok hg fun t' ht' f => sorted_reads (ho t' ht')
    exact .inr ⟨List.cons_ne_nil _ _, fs, rfl, List.forall₂_map_left_iff.mpr hfs⟩

private theorem limit_pieces {limit : Option Int64} {f : Fragment} (h : limitPieces limit = .ok f) :
    ReadsClause 4 readLimit Eq (limit.map fun n => .of limitType (.scalar (.int64 n))) f.words := by
  apply limit_reads
  cases limit with
  | none => cases h; rfl
  | some n =>
    obtain ⟨g, hg, rfl⟩ := map_eq_ok.mp h
    exact ⟨Fragment.words g, rfl, readSlot_bind hg⟩

/-- The entries of a select with its clauses behind them. -/
theorem Select.clauses_read {s : Select} (hs : s.Each (Expr.ReadsBack vis)) {g : Fragment}
    (h : s.clausePieces vis = .ok g) {entries : List Item} {fs : List Fragment} (hne : entries ≠ [])
    (hentries : List.Forall₂ (Item.Reads .entry) entries fs) :
    Query.Reads ⟨entries, (s.table :: s.joins).map Table.names,
      Tree.conjunction (s.filters.map (Expr.tree vis)),
      s.sorting.map fun t => ⟨t.expr.tree vis, t.order.suffix⟩, s.lock,
      s.limit.map fun n => .of limitType (.scalar (.int64 n))⟩
      ((joined ", " fs).words ++ g.words) := by
  obtain ⟨filters, sorting, limit, hfilters, hsorting, hlimit, rfl⟩ := Select.clausePieces_ok h
  have hread := Query.reads hne hentries (source_reads (List.cons_ne_nil s.table s.joins))
    (condition_pieces hs.filters hfilters) (sorting_pieces hs.sorting hsorting) (lock_reads s.lock)
    (limit_pieces hlimit)
  have hsource : Piece.words (.text " FROM ") = [.source] := rfl
  simpa only [Fragment.words_append, Fragment.words_cons, hsource, List.append_assoc,
    List.nil_append, List.cons_append] using hread

/-- A select within a term. -/
theorem Select.nested_reads {s : Select} (hs : s.Each fun e => ∀ vis, e.ReadsBack vis) {f : Fragment}
    (h : s.pieces vis = .ok f) :
    ∃ ws, f.words = .selection :: ws ∧ Query.Reads (s.query vis) ws := by
  obtain ⟨hne, list, clauses, hlist, hclauses, rfl⟩ := Select.pieces_ok h
  have hinner := hs.imp fun e he => he (inSight (s.table :: s.joins) vis)
  obtain ⟨fs, hfs, rfl⟩ := separatedPieces_ok hlist hinner.targets
  refine ⟨Fragment.words (joined ", " fs ++ clauses), rfl, ?_⟩
  have hentries : List.Forall₂ (Item.Reads .entry) (s.targets.map fun t =>
      ⟨t.expr.tree (inSight (s.table :: s.joins) vis), .none⟩) fs := by
    rw [List.forall₂_map_left_iff]
    refine hfs.imp fun t f ht => ?_
    exact ⟨Fragment.words f, (List.append_nil _).symm, ht.reads.looser (Nat.zero_le _), trivial⟩
  have hread := Select.clauses_read hinner hclauses (by simpa using hne) hentries
  obtain ⟨table, joins, targets, filters, sorting, lock, limit⟩ := s
  rw [Fragment.words_append, Select.query, Target.items_eq, Expr.trees_eq, SortTerm.items_eq]
  exact hread

end Clauses

/-- A term that is closed in itself is no link of a chain. -/
private theorem Expr.ReadsAs.closed {vis : List Column} {e : Expr} {f : Fragment}
    (h : Reads e.rank (e.tree vis) f.words) (he : ∀ op left right, e ≠ .binary op left right) :
    e.ReadsAs vis f :=
  ⟨h, fun op left right hop _ => absurd hop (he op left right)⟩

private theorem word_reads {w : Word} {t : Tree} (hw : w.leads .primary = true)
    (h : ∀ rest, Stops .primary rest → readPrimary (w :: rest) = some (t, rest)) :
    Reads .primary t [w] := by
  refine ⟨⟨w, [], rfl, hw⟩, fun rest hrest => ⟨t, ?_, .refl t⟩⟩
  rw [List.singleton_append, readAt_primary]
  exact h rest hrest

private theorem column_reads (vis : List Column) (c : Column) :
    Reads .primary (Expr.tree vis (.column c)) (Fragment.words (c.pieces vis)) := by
  by_cases hq : (Scope.mk vis []).needsQualification c
  · refine ⟨⟨.name c.owner, [.dot, .name c.name], by simp [Column.pieces, hq]; rfl, rfl⟩,
      fun rest hrest => ⟨_, ?_, .refl _⟩⟩
    have hws : Fragment.words (c.pieces vis) = [.name c.owner, .dot, .name c.name] := by
      simp [Column.pieces, hq]; rfl
    rw [hws, Expr.tree, if_pos hq, readAt_primary]
    simp [readPrimary]
  · have hws : Fragment.words (c.pieces vis) = [.name c.name] := by
      simp [Column.pieces, hq]; rfl
    rw [hws, Expr.tree, if_neg hq]
    refine word_reads rfl fun rest hrest => ?_
    rw [readPrimary]
    rintro n ws rfl
    exact absurd (hrest .dot rfl) (by decide)

private theorem slot_reads {type : TypeRef} {v : Value} {f : Fragment} (h : bindPieces type v = .ok f) :
    Reads .primary (.param (.of type v)) f.words := by
  have hslot := readSlot_bind h
  obtain ⟨w, hw, rfl⟩ := bindPieces_ok h
  by_cases hc : type.needsCast
  · have hws : Fragment.words [.parameter ⟨w, type⟩] = [.cast, .opening, .mark ⟨w, type⟩, .label,
        .type (castType type.descriptor), .closing] := by
      simp [Piece.words, hc]
    rw [hws] at hslot ⊢
    refine ⟨⟨.cast, _, rfl, rfl⟩, fun rest _ => ⟨_, ?_, .refl _⟩⟩
    rw [readAt_primary, List.cons_append, readPrimary, ← List.cons_append, hslot]
    all_goals simp
  · have hws : Fragment.words [.parameter ⟨w, type⟩] = [.mark ⟨w, type⟩] := by
      simp [Piece.words, hc]
    rw [hws] at hslot ⊢
    refine word_reads rfl fun rest _ => ?_
    rw [readPrimary, ← List.singleton_append, hslot]
    all_goals simp

private theorem call_reads {vis : List Column} (function : String) {args : List Expr} {fs : List Fragment}
    (hargs : List.Forall₂ (Expr.ReadsAs vis) args fs) : (Expr.call function args).ReadsAs vis
      (.function function :: .text "(" :: joined ", " fs ++ [.text ")"]) := by
  refine .closed ?_ (by simp)
  have hread : List.Forall₂ (fun t f => Reads .disjunction t (Fragment.words f))
      (args.map (Expr.tree vis)) fs := by
    rw [List.forall₂_map_left_iff]
    exact hargs.imp fun e f he => he.reads.looser (Nat.zero_le _)
  have hws : Fragment.words (.function function :: .text "(" :: joined ", " fs ++ [.text ")"]) =
      .function function :: .opening :: ((joined ", " fs).words ++ [.closing]) := by
    simp [Piece.words, ofText_opening, ofText_closing]
  rw [hws, Expr.tree, Expr.trees_eq]
  exact .call function hread

/-- An operation of a chain is a chain of its operands; any other is read with its operands one rank
tighter. -/
private theorem binary_reads {vis : List Column} (op : Operator) {left right : Expr} {f g : Fragment}
    (hl : left.ReadsAs vis f) (hr : right.ReadsAs vis g) : (Expr.binary op left right).ReadsAs vis
      (left.operandPieces op.precedence op.chains f ++
        .text " " :: .text op.text :: .text " " :: right.operandPieces op.precedence op.chains g) := by
  have hws : Fragment.words (left.operandPieces op.precedence op.chains f ++
      .text " " :: .text op.text :: .text " " :: right.operandPieces op.precedence op.chains g) =
      (left.operandPieces op.precedence op.chains f).words ++
        .operator op :: (right.operandPieces op.precedence op.chains g).words := by
    simp [Piece.words, ofText_blank, Word.ofText_operator]
  by_cases hop : op ∈ chainOperators
  · have hchain := (operand_chains hl hop).binary hop (operand_chains hr hop)
    rw [← hws] at hchain
    refine ⟨hchain.reads, fun op' _ _ he _ => ?_⟩
    cases he
    exact hchain
  · have hlevel := Rank.level_next (Rank.ofOperator_ne_primary op)
    have hp := op.precedence_eq
    have hchains (op' : Operator) (_ : op'.precedence = op.precedence) : op.chains op' = false := by
      have ha := (not_congr op.isAssociative_iff).mpr hop
      simp [Operator.chains, ha]
    have hread := (operand_reads hl (r := (Rank.ofOperator op).next) (by omega) hchains).binary
      (operand_reads hr (by omega) hchains)
    rw [← hws] at hread
    refine ⟨hread, fun op' _ _ he hop' => ?_⟩
    cases he
    exact absurd hop' hop

/-- Rendering a term and reading what was written gives back the tree of the term. -/
theorem Expr.reads_as (e : Expr) (vis : List Column) (f : Fragment) (h : e.pieces vis = .ok f) :
    e.ReadsAs vis f := by
  refine Expr.pieces_induction (P := fun e vis f => e.ReadsAs vis f) ?column ?param ?default ?bool ?call
    ?binary ?not ?nullTest ?within ?subquery ?existence e vis f h
  case column => exact fun c vis => .closed (column_reads vis c) (by simp)
  case param => exact fun v type vis f hf => .closed (slot_reads hf) (by simp)
  case default =>
    intro vis
    refine .closed ?_ (by simp)
    have hws : Fragment.words [.text "DEFAULT"] = [.default] := rfl
    rw [hws, Expr.tree]
    exact word_reads rfl fun rest _ => by rw [readPrimary]
  case bool =>
    intro b vis
    refine .closed ?_ (by simp)
    have hws : Fragment.words [.text (if b then "TRUE" else "FALSE")] = [.bool b] := by
      cases b <;> rfl
    rw [hws, Expr.tree]
    exact word_reads rfl fun rest _ => by rw [readPrimary]
  case call => exact fun function args vis fs hfs => call_reads function hfs
  case binary => exact fun op left right vis f g hf hg => binary_reads op hf hg
  case not =>
    intro e vis f hf
    have hread : Reads .comparison (e.tree vis)
        (e.operandPieces negationPrecedence (fun _ => false) f).words :=
      operand_reads hf rfl fun _ _ => rfl
    exact .closed (hread.looser (by decide)).not (by simp)
  case nullTest =>
    intro e negated vis f hf
    have hread : Reads .matching (e.tree vis)
        (e.operandPieces comparisonPrecedence (fun _ => false) f).words :=
      operand_reads hf rfl fun _ _ => rfl
    have hws : Piece.words (.text (if negated then " IS NOT NULL" else " IS NULL")) =
        if negated then [.is, .negation, .null] else [.is, .null] := by
      cases negated <;> rfl
    refine .closed ?_ (by simp)
    rw [Fragment.words_append, Fragment.words_cons, hws, Fragment.words_nil, List.append_nil]
    exact hread.nullTest negated
  case within =>
    intro e values element array vis f g harray hf hg
    have hread : Reads .matching (e.tree vis)
        (e.operandPieces comparisonPrecedence (fun _ => false) f).words :=
      operand_reads hf rfl fun _ _ => rfl
    have hany : Word.ofText " = ANY(" = [.operator .eq, .any, .opening] := rfl
    refine .closed ?_ (by simp)
    rw [Expr.tree, harray]
    simpa [hany, Piece.words, ofText_closing, Expr.rank] using hread.member (readSlot_bind hg)
  case subquery =>
    intro s vis f ih hf
    obtain ⟨ws, hws, hread⟩ := Select.nested_reads ih hf
    refine .closed ?_ (by simp)
    simpa [Piece.words, ofText_opening, ofText_closing, hws, Expr.rank, Expr.tree] using hread.nested.1
  case existence =>
    intro s vis f ih hf
    obtain ⟨ws, hws, hread⟩ := Select.nested_reads ih hf
    have hexists : Word.ofText "EXISTS (" = [.existence, .opening] := rfl
    refine .closed ?_ (by simp)
    simpa [Piece.words, ofText_closing, hexists, hws, Expr.rank, Expr.tree] using hread.nested.2

theorem Reads.readTerm {t : Tree} {ws : List Word} (h : Reads .disjunction t ws) :
    ∃ t', Sql.readTerm ws = some t' ∧ t.Regroups t' := by
  obtain ⟨t', hread, ht⟩ := h.read [] nofun
  rw [List.append_nil] at hread
  exact ⟨t', by rw [Sql.readTerm, hread], ht⟩

/-- What a successful step writes. -/
theorem Adds.written {step : Rendering Unit} {c c' : Canvas} {r : Except Error Fragment}
    (h : Adds c.scope.visible step r) (hrun : step.run c = (.ok (), c')) :
    ∃ f, r = .ok f ∧ c'.written = c.written ++ f := by
  cases r with
  | error x =>
    have hx := h c.scope.outputs c.written
    rw [hrun] at hx
    cases hx
  | ok f =>
    have hf := h c.scope.outputs c.written
    rw [hrun] at hf
    exact ⟨f, rfl, congrArg (fun p => p.2.written) hf⟩

/-- Wherever a term is rendered, the words written are read back as its tree, and a condition is read
back as the conjunction of its filters in their order; only chains may come back grouped otherwise. -/
theorem render_reads_back (c c' : Canvas) :
    (∀ e : Expr, e.render.run c = (.ok (), c') → ∃ (f : Fragment) (t : Tree), c'.written = c.written ++ f ∧
      readTerm f.words = some t ∧ (e.tree c.scope.visible).Regroups t) ∧
    ∀ (e : Expr) (es : List Expr), (renderFilters (e :: es)).run c = (.ok (), c') →
      ∃ (f : Fragment) (t : Tree), c'.written = c.written ++ .text " WHERE " :: f ∧
        readTerm f.words = some t ∧
        ((es.map (Expr.tree c.scope.visible)).foldl (.binary .and)
          (e.tree c.scope.visible)).Regroups t := by
  constructor
  · intro e hrun
    obtain ⟨f, hf, hwritten⟩ := (e.render_adds _).written hrun
    obtain ⟨t, ht, hsame⟩ := ((e.reads_as _ f hf).reads.looser (Nat.zero_le _)).readTerm
    exact ⟨f, t, hwritten, ht, hsame⟩
  · intro e es hrun
    have hadds := renderFilters_adds fun e' (_ : e' ∈ e :: es) => e'.render_adds c.scope.visible
    obtain ⟨f, hf, hwritten⟩ := hadds.written hrun
    obtain ⟨g, rfl, hread⟩ := filters_read (fun e' _ => e'.reads_as _) hf
    obtain ⟨t, ht, hsame⟩ := hread.readTerm
    exact ⟨g, t, hwritten, ht, hsame⟩

/-- A negation of a disjunction beside a test of a comparison, alone and behind another filter. -/
theorem render_reads_back_negation :
    let a : Expr := .column ⟨"t", "a", limitType⟩
    let e : Expr := .binary .and (.not (.binary .or a (.bool true))) (.nullTest (.binary .eq a .default) true)
    (∃ (f : Fragment) (t : Tree), readTerm f.words = some t ∧ (e.tree []).Regroups t) ∧
      ∃ (f : Fragment) (t : Tree), readTerm f.words = some t ∧
        (Tree.binary .and (a.tree []) (e.tree [])).Regroups t := by
  intro a e
  obtain ⟨f, t, -, hread, hsame⟩ := (render_reads_back .blank _).1 e rfl
  obtain ⟨g, u, -, hread', hsame'⟩ := (render_reads_back .blank _).2 a [e] rfl
  exact ⟨⟨f, t, hread, hsame⟩, g, u, hread', hsame'⟩

end TypedSql.Sql

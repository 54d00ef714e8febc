import TypedSql.Proofs.Sql.Grammar

/-! Texts that the reference grammar reads as a tree, whatever follows them. -/
namespace TypedSql.Sql

namespace Rank

theorem level_inj {r r' : Rank} (h : r.level = r'.level) : r = r' := by
  cases r <;> cases r' <;> first | rfl | cases h

theorem ofOperator_ne_primary (op : Operator) : ofOperator op ≠ primary := by
  cases op <;> decide

theorem leftAssociative_of_chain {op : Operator} (h : op ∈ chainOperators) :
    (ofOperator op).leftAssociative = true := by
  cases op <;> first | rfl | simp [chainOperators] at h

end Rank

/-- Whether a word could carry on a term read at a rank. -/
def Word.continues (r : Rank) : Word → Bool
  | .operator op => r.level ≤ (Rank.ofOperator op).level
  | .is => r.level ≤ Rank.comparison.level
  | .dot => true
  | _ => false

/-- Nothing that carries on a term read at a rank. -/
def Stops (r : Rank) (ws : List Word) : Prop := ∀ w ∈ ws.head?, w.continues r = false

/-- Whether a term of a rank may start with a word. -/
def Word.leads (r : Rank) : Word → Bool
  | .name _ | .function _ | .mark _ | .cast | .default | .bool _ | .existence | .opening => true
  | .negation => r.level ≤ Rank.negation.level
  | _ => false

def Leads (r : Rank) (ws : List Word) : Prop := ∃ w rest, ws = w :: rest ∧ w.leads r = true

theorem Leads.append {r : Rank} {ws : List Word} (h : Leads r ws) (rest : List Word) :
    Leads r (ws ++ rest) := by
  obtain ⟨w, ws, rfl, hw⟩ := h
  exact ⟨w, ws ++ rest, rfl, hw⟩

theorem Leads.length_lt {r : Rank} {ws : List Word} (h : Leads r ws) (rest : List Word) :
    rest.length < (ws ++ rest).length := by
  obtain ⟨w, ws, rfl, -⟩ := h
  simp only [List.length_append, List.length_cons]
  omega

theorem Leads.looser {r r' : Rank} {ws : List Word} (h : Leads r ws) (hr : r'.level ≤ r.level) :
    Leads r' ws := by
  obtain ⟨w, ws, rfl, hw⟩ := h
  refine ⟨w, ws, rfl, ?_⟩
  cases w with
  | negation => simp only [Word.leads, decide_eq_true_eq] at hw ⊢; omega
  | _ => exact hw

theorem Stops.tighter {r r' : Rank} {ws : List Word} (h : Stops r ws) (hr : r.level ≤ r'.level) :
    Stops r' ws := by
  intro w hw
  have hc := h w hw
  cases w with
  | operator op => simp only [Word.continues, decide_eq_false_iff_not] at hc ⊢; omega
  | is => simp only [Word.continues, decide_eq_false_iff_not] at hc ⊢; omega
  | _ => exact hc

theorem Stops.operator {r : Rank} {op : Operator} (h : (Rank.ofOperator op).level < r.level)
    (ws : List Word) : Stops r (.operator op :: ws) := by
  intro w hw
  cases Option.mem_some_iff.mp hw
  simpa [Word.continues] using h

namespace Tree.Regroups

variable {a a' b b' : Tree}

theorem refl (a : Tree) : a.Regroups a := Relation.ReflTransGen.refl

theorem trans {c : Tree} (h : a.Regroups b) (h' : b.Regroups c) : a.Regroups c :=
  Relation.ReflTransGen.trans h h'

theorem lift {k : Tree → Tree} (hk : ∀ a b, Regroup a b → Regroup (k a) (k b)) (h : a.Regroups b) :
    (k a).Regroups (k b) :=
  Relation.ReflTransGen.lift k (fun _ _ => hk _ _) _ _ h

theorem binary {op : Operator} (ha : a.Regroups a') (hb : b.Regroups b') :
    (Tree.binary op a b).Regroups (.binary op a' b') :=
  (ha.lift (k := (Tree.binary op · b)) fun _ _ h => .left b h).trans
    (hb.lift fun _ _ h => .right a' h)

theorem chain {op : Operator} (h : op ∈ chainOperators) (a b c : Tree) :
    (Tree.binary op a (.binary op b c)).Regroups (.binary op (.binary op a b) c) :=
  Relation.ReflTransGen.single (.chain h a b c)

end Tree.Regroups

/-- A text that is read as a tree, up to how chains are grouped, at a rank and before anything that
does not carry it on. -/
structure Reads (r : Rank) (t : Tree) (ws : List Word) : Prop where
  leads : Leads r ws
  read : ∀ rest, Stops r rest → ∃ t', readAt r (ws ++ rest) = some (t', rest) ∧ t.Regroups t'

/-- A text that may stand anywhere in a chain of an operator: it starts one, and it carries one on. -/
structure Chains (op : Operator) (t : Tree) (ws : List Word) : Prop where
  leads : Leads (Rank.ofOperator op) ws
  begins : ∀ rest, Stops (Rank.ofOperator op).next rest → ∃ t',
    readAt (Rank.ofOperator op) (ws ++ rest) = readTail (Rank.ofOperator op) t' rest ∧ t.Regroups t'
  follows : ∀ acc rest, Stops (Rank.ofOperator op).next rest → ∃ acc',
    readTail (Rank.ofOperator op) acc (.operator op :: (ws ++ rest)) =
      readTail (Rank.ofOperator op) acc' rest ∧ (Tree.binary op acc t).Regroups acc'

theorem readTail_stops {r : Rank} {ws : List Word} (h : Stops r ws) (t : Tree) :
    readTail r t ws = some (t, ws) := by
  cases ws with
  | nil => simp [readTail]
  | cons w ws =>
    have hw := h w rfl
    cases w with
    | operator op =>
      have hne : Rank.ofOperator op ≠ r := by rintro rfl; simp [Word.continues] at hw
      simp [readTail.eq_def, hne]
    | is =>
      have hne : r ≠ .comparison := by rintro rfl; simp [Word.continues] at hw
      simp [readTail.eq_def, hne]
    | _ => simp [readTail]

theorem readAt_primary (ws : List Word) : readAt .primary ws = readPrimary ws := by
  rw [readAt] <;> simp

/-- What was read as the first operand is carried on. -/
theorem readAt_operand {r : Rank} (hr : r ≠ .primary) {ws rest : List Word} (h : Leads r.next ws)
    {t : Tree} (hread : readAt r.next (ws ++ rest) = some (t, rest)) :
    readAt r (ws ++ rest) = readTail r t rest := by
  have hlength := h.length_lt rest
  obtain ⟨w, ws, rfl, hw⟩ := h
  have hnegation : ∀ ws', r = .negation → w :: ws ++ rest = .negation :: ws' → False := by
    rintro ws' rfl he
    cases he
    cases hw
  rw [readAt.eq_2 _ _ hnegation, if_neg hr, hread]
  exact if_pos hlength

theorem readTail_operator {op : Operator} {ws rest : List Word}
    (h : Leads (Rank.ofOperator op).next ws) {right : Tree}
    (hread : readAt (Rank.ofOperator op).next (ws ++ rest) = some (right, rest)) (left : Tree) :
    readTail (Rank.ofOperator op) left (.operator op :: (ws ++ rest)) =
      if (Rank.ofOperator op).leftAssociative then
        readTail (Rank.ofOperator op) (.binary op left right) rest
      else some (.binary op left right, rest) := by
  have hlength := h.length_lt rest
  obtain ⟨w, ws, rfl, hw⟩ := h
  have hany : ∀ ws', op = .eq → w :: ws ++ rest = .any :: .opening :: ws' → False := by
    rintro ws' rfl he
    obtain ⟨rfl, -⟩ := List.cons.inj he
    cases hw
  rw [readTail, if_neg (by simp)]
  · simp only [hread, Option.bind_eq_bind, Option.bind_some, if_pos hlength]
    cases (Rank.ofOperator op).leftAssociative <;> rfl
  · exact hany

namespace Reads

variable {r r' : Rank} {t : Tree} {ws : List Word}

private theorem descend (hr : r ≠ .primary) (h : Reads r.next t ws) : Reads r t ws := by
  have hlevel := Rank.level_next hr
  refine ⟨h.leads.looser (by omega), fun rest hrest => ?_⟩
  obtain ⟨t', hread, ht⟩ := h.read rest (hrest.tighter (by omega))
  refine ⟨t', ?_, ht⟩
  exact (readAt_operand hr h.leads hread).trans (readTail_stops hrest t')

/-- A term stands wherever a looser one may. -/
theorem looser (h : Reads r t ws) (hr : r'.level ≤ r.level) : Reads r' t ws := by
  obtain ⟨n, hn⟩ := Nat.exists_eq_add_of_le hr
  induction n generalizing r' with
  | zero => exact Rank.level_inj hn ▸ h
  | succ n ih =>
    have hp : r' ≠ .primary := by
      rintro rfl
      have := r.level_le_primary
      omega
    have hlevel := Rank.level_next hp
    exact descend hp (ih (by omega) (by omega))

theorem primary (h : Reads .primary t ws) (r : Rank) : Reads r t ws := h.looser r.level_le_primary

/-- A term in parentheses is closed in itself. -/
theorem parenthesized (h : Reads .disjunction t ws) :
    Reads .primary t (.opening :: ws ++ [.closing]) := by
  refine ⟨⟨.opening, ws ++ [.closing], rfl, rfl⟩, fun rest _ => ?_⟩
  obtain ⟨t', hread, ht⟩ := h.read (.closing :: rest) (by intro w hw; cases hw; rfl)
  refine ⟨t', ?_, ht⟩
  have hws : .opening :: ws ++ [.closing] ++ rest = .opening :: (ws ++ .closing :: rest) := by simp
  obtain ⟨w, ws', hleads, hw⟩ := h.leads
  rw [readAt_primary, hws, readPrimary, hread]
  · rfl
  · rw [hleads]
    rintro ws'' he
    cases he
    cases hw

theorem not (h : Reads .negation t ws) : Reads .negation (.not t) (.negation :: ws) := by
  refine ⟨⟨.negation, ws, rfl, rfl⟩, fun rest hrest => ?_⟩
  obtain ⟨t', hread, ht⟩ := h.read rest hrest
  refine ⟨.not t', ?_, ht.lift fun _ _ => .not⟩
  rw [List.cons_append, readAt, hread]
  rfl

/-- What stands behind an operand and makes a comparison of it. -/
private theorem compared {k : Tree → Tree} {tail : List Word} (h : Reads .matching t ws)
    (hk : ∀ a b, Tree.Regroup a b → Tree.Regroup (k a) (k b))
    (hstops : ∀ rest, Stops .matching (tail ++ rest))
    (htail : ∀ t rest, readTail .comparison t (tail ++ rest) = some (k t, rest)) :
    Reads .comparison (k t) (ws ++ tail) := by
  refine ⟨(h.leads.looser (by decide)).append tail, fun rest _ => ?_⟩
  obtain ⟨t', hread, ht⟩ := h.read (tail ++ rest) (hstops rest)
  refine ⟨k t', ?_, ht.lift hk⟩
  rw [List.append_assoc]
  exact (readAt_operand (r := .comparison) nofun h.leads hread).trans (htail t' rest)

theorem nullTest (h : Reads .matching t ws) (negated : Bool) : Reads .comparison (.nullTest t negated)
    (ws ++ if negated then [.is, .negation, .null] else [.is, .null]) := by
  cases negated with
  | false =>
    refine h.compared (fun _ _ => .nullTest false) (fun rest => ?_) fun t rest => ?_
    · intro w hw; cases hw; rfl
    · simp [readTail]
  | true =>
    refine h.compared (fun _ _ => .nullTest true) (fun rest => ?_) fun t rest => ?_
    · intro w hw; cases hw; rfl
    · simp [readTail]

theorem member {slot : Slot} {array : List Word} (h : Reads .matching t ws)
    (hslot : ∀ rest, readSlot (array ++ rest) = some (slot, rest)) :
    Reads .comparison (.member t slot)
      (ws ++ .operator .eq :: .any :: .opening :: (array ++ [.closing])) := by
  refine h.compared (fun _ _ => .member slot) (fun rest => ?_) fun t rest => ?_
  · exact .operator (by decide) _
  · simp [readTail, Rank.ofOperator, hslot, readClosing]

end Reads

theorem Reads.binary {op : Operator} {a b : Tree} {ws ws' : List Word}
    (ha : Reads (Rank.ofOperator op).next a ws) (hb : Reads (Rank.ofOperator op).next b ws') :
    Reads (Rank.ofOperator op) (.binary op a b) (ws ++ .operator op :: ws') := by
  have hr := Rank.ofOperator_ne_primary op
  have hlevel := Rank.level_next hr
  refine ⟨(ha.leads.looser (by omega)).append _, fun rest hrest => ?_⟩
  obtain ⟨a', hreada, hta⟩ := ha.read (.operator op :: (ws' ++ rest)) (.operator (by omega) _)
  obtain ⟨b', hreadb, htb⟩ := hb.read rest (hrest.tighter (by omega))
  refine ⟨.binary op a' b', ?_, hta.binary htb⟩
  rw [List.append_assoc, List.cons_append, readAt_operand hr ha.leads hreada,
    readTail_operator hb.leads hreadb]
  cases hl : (Rank.ofOperator op).leftAssociative with
  | true => exact readTail_stops hrest _
  | false => rfl

namespace Chains

variable {op : Operator} {a b t : Tree} {ws ws' : List Word}

theorem reads (h : Chains op t ws) : Reads (Rank.ofOperator op) t ws := by
  have hlevel := Rank.level_next (Rank.ofOperator_ne_primary op)
  refine ⟨h.leads, fun rest hrest => ?_⟩
  obtain ⟨t', hread, ht⟩ := h.begins rest (hrest.tighter (by omega))
  exact ⟨t', hread.trans (readTail_stops hrest t'), ht⟩

/-- A tighter term is a link of any chain. -/
theorem link (hop : op ∈ chainOperators) (h : Reads (Rank.ofOperator op).next t ws) : Chains op t ws := by
  have hr := Rank.ofOperator_ne_primary op
  have hlevel := Rank.level_next hr
  refine ⟨h.leads.looser (by omega), fun rest hrest => ?_, fun acc rest hrest => ?_⟩
  · obtain ⟨t', hread, ht⟩ := h.read rest hrest
    exact ⟨t', readAt_operand hr h.leads hread, ht⟩
  · obtain ⟨t', hread, ht⟩ := h.read rest hrest
    refine ⟨.binary op acc t', ?_, Tree.Regroups.binary (.refl acc) ht⟩
    rw [readTail_operator h.leads hread, if_pos (Rank.leftAssociative_of_chain hop)]

/-- Two chains of one operator with the operator between them are one chain, however their trees group. -/
theorem binary (hop : op ∈ chainOperators) (ha : Chains op a ws) (hb : Chains op b ws') :
    Chains op (.binary op a b) (ws ++ .operator op :: ws') := by
  have hlevel := Rank.level_next (Rank.ofOperator_ne_primary op)
  refine ⟨ha.leads.append _, fun rest hrest => ?_, fun acc rest hrest => ?_⟩
  · obtain ⟨a', hbegins, hta⟩ := ha.begins (.operator op :: (ws' ++ rest)) (.operator (by omega) _)
    obtain ⟨t', hfollows, ht⟩ := hb.follows a' rest hrest
    refine ⟨t', ?_, (hta.binary (.refl b)).trans ht⟩
    rw [List.append_assoc, List.cons_append, hbegins, hfollows]
  · obtain ⟨acc', hfirst, hacc⟩ :=
      ha.follows acc (.operator op :: (ws' ++ rest)) (.operator (by omega) _)
    obtain ⟨t', hsecond, ht⟩ := hb.follows acc' rest hrest
    refine ⟨t', ?_, (Tree.Regroups.chain hop acc a b).trans ((hacc.binary (.refl b)).trans ht)⟩
    rw [List.append_assoc, List.cons_append, hfirst, hsecond]

end Chains

end TypedSql.Sql

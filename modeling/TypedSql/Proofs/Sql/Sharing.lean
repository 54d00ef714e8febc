import TypedSql.Proofs.Sql.Listing
import TypedSql.Proofs.Value.Equality
import Mathlib.Data.List.Pairwise
import Mathlib.Data.List.Nodup

/-! The outputs of a list of targets: one for each text, in the order in which the texts first stand, with
the fields of all targets that have it. -/
namespace TypedSql.Sql

theorem Parameter.fair (p : Parameter) : Fair Parameter.equals p := by
  have htype : Fair TypeRef.agrees p.type :=
    .comap (fun t : TypeRef => (t.nullable, t.oid)) ((Fair.of_decEq _).pair (.of_decEq _))
  exact .comap (fun q : Parameter => (q.value, q.type)) (p.value.fair.pair htype)

theorem Fragment.sameParams_eq (ps qs : List Parameter) :
    sameParams ps qs = ps.isEqv qs Parameter.equals := by
  induction ps generalizing qs with
  | nil => cases qs <;> rfl
  | cons p ps ih => cases qs <;> simp [sameParams, List.isEqv, ih]

theorem Fragment.fair (f : Fragment) : Fair same f := by
  have hsame : same = fun f g => decide (f.sql = g.sql) && f.params.isEqv g.params Parameter.equals := by
    funext f g
    rw [same, sameParams_eq]
  rw [hsame]
  exact .comap (fun g : Fragment => (g.sql, g.params))
    ((Fair.of_decEq f.sql).pair (Fair.list fun p (_ : p ∈ f.params) => p.fair))

/-- A target at its place in a list, with the text it would be written with. -/
structure Entry where
  place : Nat
  target : Target
  text : Fragment

namespace Entry

/-- Whether two entries have the same text. An entry has that of itself, also when the text does not equal
itself for a NaN among its parameters. -/
def alike (d e : Entry) : Bool := d.place = e.place || d.text.same e.text

/-- The entries whose text stands nowhere before them. -/
def firsts (es : List Entry) : List Entry :=
  es.filter fun e => !es.any fun d => d.place < e.place && d.text.same e.text

/-- The entries that have the text of an entry. -/
def sharing (es : List Entry) (e : Entry) : List Entry := es.filter e.alike

/-- Entries in the order of their places. -/
def Placed (es : List Entry) : Prop := es.Pairwise fun d e => d.place < e.place

def field (e : Entry) : String := e.target.field

def written (e : Entry) : Target × Fragment := (e.target, e.text)

variable {e d : Entry} {es : List Entry}

theorem Placed.nodup (h : Placed es) : (es.map place).Nodup :=
  List.pairwise_map.mpr (h.imp Nat.ne_of_lt)

theorem Placed.eq_of_place (h : Placed es) (hd : d ∈ es) (he : e ∈ es) (hplace : d.place = e.place) :
    d = e :=
  List.inj_on_of_nodup_map h.nodup hd he hplace

theorem mem_firsts : e ∈ firsts es ↔
    e ∈ es ∧ ∀ d ∈ es, d.place < e.place → d.text.same e.text = false := by
  simp [firsts]

theorem firsts_nodup (h : Placed es) : (firsts es).Nodup := (List.Nodup.of_map _ h.nodup).filter _

theorem firsts_cons (h : Placed (e :: es)) :
    firsts (e :: es) = e :: (firsts es).filter fun d => !e.text.same d.text := by
  obtain ⟨he, -⟩ := List.pairwise_cons.mp h
  have hfirst : ((e :: es).any fun d => d.place < e.place && d.text.same e.text) = false := by
    rw [List.any_eq_false]
    rintro d hd
    have hle : e.place ≤ d.place := by
      rcases List.mem_cons.mp hd with rfl | hd
      · exact Nat.le_refl _
      · exact Nat.le_of_lt (he d hd)
    simp [Nat.not_lt.mpr hle]
  rw [firsts, List.filter_cons_of_pos (by simp only [hfirst, Bool.not_false]), firsts, List.filter_filter]
  congr 1
  refine List.filter_congr fun d hd => ?_
  simp [he d hd]

theorem sharing_cons_self (h : Placed (e :: es)) :
    sharing (e :: es) e = e :: es.filter fun d => e.text.same d.text := by
  obtain ⟨he, -⟩ := List.pairwise_cons.mp h
  rw [sharing, List.filter_cons_of_pos (by simp [alike])]
  congr 1
  refine List.filter_congr fun d hd => ?_
  simp [alike, Nat.ne_of_lt (he d hd)]

theorem sharing_cons (h : Placed (e :: es)) (hd : d ∈ es) (hsame : e.text.same d.text = false) :
    sharing (e :: es) d = sharing es d := by
  have hplace : d.place ≠ e.place := Nat.ne_of_gt ((List.pairwise_cons.mp h).1 d hd)
  have htext : d.text.same e.text = false := d.text.fair.symm_false hsame
  rw [sharing, List.filter_cons_of_neg (by simp [alike, htext, hplace]), sharing]

theorem same_of_alike {a b : Entry} (h : Placed es) (ha : a ∈ es) (hb : b ∈ es) (he : e ∈ es)
    (hae : a.alike e = true) (hbe : b.alike e = true) (hne : a.place ≠ b.place) :
    a.text.same b.text = true := by
  simp only [alike, Bool.or_eq_true, decide_eq_true_eq] at hae hbe
  rcases hae with hae | hae
  · obtain rfl := h.eq_of_place ha he hae
    exact b.text.fair.symm (hbe.resolve_left hne.symm)
  · rcases hbe with hbe | hbe
    · obtain rfl := h.eq_of_place hb he hbe
      exact hae
    · exact a.text.fair.trans hae (b.text.fair.symm hbe)

theorem exists_first (h : Placed es) (he : e ∈ es) : ∃ d ∈ firsts es, d.alike e = true := by
  induction es with
  | nil => cases he
  | cons a es ih =>
    rw [firsts_cons h]
    rcases List.mem_cons.mp he with rfl | he
    · exact ⟨e, List.mem_cons_self, by simp [alike]⟩
    obtain ⟨d, hd, halike⟩ := ih (List.pairwise_cons.mp h).2 he
    by_cases hsame : a.text.same d.text
    · refine ⟨a, List.mem_cons_self, ?_⟩
      rw [alike, Bool.or_eq_true, decide_eq_true_eq] at halike ⊢
      rcases halike with hplace | htext
      · obtain rfl := h.eq_of_place (List.mem_cons_of_mem a (mem_firsts.mp hd).1)
          (List.mem_cons_of_mem a he) hplace
        exact .inr hsame
      · exact .inr (a.text.fair.trans hsame htext)
    · exact ⟨d, List.mem_cons_of_mem a (List.mem_filter.mpr ⟨hd, by simpa using hsame⟩), halike⟩

/-- Every entry has the text of exactly one that stands first. -/
theorem exists_unique_first (h : Placed es) (he : e ∈ es) :
    ∃! d, d ∈ firsts es ∧ d.alike e = true := by
  obtain ⟨d, hd, halike⟩ := exists_first h he
  refine ⟨d, ⟨hd, halike⟩, ?_⟩
  rintro b ⟨hb, hbalike⟩
  obtain ⟨hdmem, hdfirst⟩ := mem_firsts.mp hd
  obtain ⟨hbmem, hbfirst⟩ := mem_firsts.mp hb
  rcases Nat.lt_trichotomy b.place d.place with hlt | heq | hlt
  · have hsame := same_of_alike h hbmem hdmem he hbalike halike (Nat.ne_of_lt hlt)
    rw [hdfirst b hbmem hlt] at hsame
    cases hsame
  · exact h.eq_of_place hbmem hdmem heq
  · have hsame := same_of_alike h hdmem hbmem he halike hbalike (Nat.ne_of_lt hlt)
    rw [hbfirst d hdmem hlt] at hsame
    cases hsame

/-- The entries sorted by text: every entry is there once. -/
theorem firsts_flatMap_sharing (h : Placed es) : ((firsts es).flatMap (sharing es)).Perm es := by
  have hes : es.Nodup := .of_map _ h.nodup
  refine (List.perm_ext_iff_of_nodup ?_ hes).mpr fun e => ?_
  · refine List.nodup_flatMap.mpr ⟨fun d _ => hes.filter _, ?_⟩
    refine (firsts_nodup h).pairwise_of_forall_ne fun a ha b hb hne e hea heb => ?_
    obtain ⟨he, hae⟩ := List.mem_filter.mp hea
    obtain ⟨-, hbe⟩ := List.mem_filter.mp heb
    exact hne ((exists_unique_first h he).unique ⟨ha, hae⟩ ⟨hb, hbe⟩)
  · rw [List.mem_flatMap]
    constructor
    · rintro ⟨d, -, he⟩
      exact (List.mem_filter.mp he).1
    · intro he
      obtain ⟨d, hd, halike⟩ := exists_first h he
      exact ⟨d, hd, List.mem_filter.mpr ⟨he, halike⟩⟩

end Entry

section Claims

variable {outputs : List (Fragment × Output)} {f : Fragment} {field : String}

/-- Texts of which none is the same as one before it. -/
def Distinct (texts : List Fragment) : Prop := texts.Pairwise fun f g => f.same g = false

/-- A field for an output, if it has the field's text. -/
def fill (f : Fragment) (field : String) (p : Fragment × Output) : Fragment × Output :=
  if p.1.same f then (p.1, { p.2 with fields := p.2.fields ++ [field] }) else p

theorem fill_text (p : Fragment × Output) : (fill f field p).1 = p.1 := by
  rw [fill]
  split <;> rfl

theorem fill_texts : (outputs.map (fill f field)).map Prod.fst = outputs.map Prod.fst := by
  rw [List.map_map]
  exact List.map_congr_left fun p _ => fill_text p

theorem shareOutput_eq (hdistinct : Distinct (outputs.map Prod.fst))
    (hshared : (outputs.map Prod.fst).any (·.same f) = true) :
    Scope.shareOutput f field outputs = some (outputs.map (fill f field)) := by
  induction outputs with
  | nil => cases hshared
  | cons p outputs ih =>
    obtain ⟨g, o⟩ := p
    rw [List.map_cons, Distinct, List.pairwise_cons] at hdistinct
    obtain ⟨hg, hdistinct⟩ := hdistinct
    by_cases hsame : g.same f
    · have hrest : outputs.map (fill f field) = outputs := by
        refine (List.map_congr_left fun p hp => ?_).trans outputs.map_id
        refine if_neg fun hp' => ?_
        have hgp := g.fair.trans hsame (p.1.fair.symm hp')
        rw [hg p.1 (List.mem_map_of_mem hp)] at hgp
        cases hgp
      rw [Scope.shareOutput, if_pos hsame, List.map_cons, hrest, fill, if_pos hsame]
    · have hshared' : (outputs.map Prod.fst).any (·.same f) = true := by simpa [hsame] using hshared
      rw [Scope.shareOutput, if_neg hsame, ih hdistinct hshared', List.map_cons, fill, if_neg hsame]
      rfl

end Claims

namespace Entry

variable {es : List Entry} {outputs : List (Fragment × Output)}

/-- An output with the fields of all entries that have its text. -/
def fillAll (es : List Entry) (p : Fragment × Output) : Fragment × Output :=
  (p.1, { p.2 with fields := p.2.fields ++ (es.filter fun e => p.1.same e.text).map field })

/-- The output of an entry that stands first, `index` outputs being before it. -/
def output (es : List Entry) (index : Nat) (e : Entry) : Output :=
  ⟨Scope.outputName index, e.target.type, (sharing es e).map field⟩

/-- The output that an entry claims, with no field but its own. -/
def claimed (index : Nat) (e : Entry) : Fragment × Output :=
  (e.text, ⟨Scope.outputName index, e.target.type, [e.field]⟩)

/-- Whether no output has the text of an entry. -/
def isNew (outputs : List (Fragment × Output)) (e : Entry) : Bool :=
  !(outputs.map Prod.fst).any (·.same e.text)

theorem fillAll_cons (e : Entry) (p : Fragment × Output) :
    fillAll (e :: es) p = fillAll es (fill e.text e.field p) := by
  by_cases h : p.1.same e.text <;> simp [fillAll, fill, h]

theorem fillAll_claimed {e : Entry} (h : Placed (e :: es)) (index : Nat) :
    fillAll es (claimed index e) = (e.text, output (e :: es) index e) := by
  simp [fillAll, claimed, output, sharing_cons_self h]

theorem fillAll_nil (p : Fragment × Output) : fillAll [] p = p := by
  simp [fillAll]

theorem isNew_eq_true {e : Entry} : isNew outputs e = true ↔ ∀ p ∈ outputs, p.1.same e.text = false := by
  simp [isNew]

theorem isNew_fill {f : Fragment} {name : String} (d : Entry) :
    isNew (outputs.map (fill f name)) d = isNew outputs d := by
  rw [isNew, fill_texts, isNew]

theorem isNew_claimed (n : Nat) (e d : Entry) :
    isNew (outputs ++ [claimed n e]) d = (isNew outputs d && !e.text.same d.text) := by
  simp [isNew, claimed]

/-- A new text is not that of an entry that shares an output. -/
theorem not_same_of_isNew {d e : Entry} (hshared : isNew outputs e = false) (hd : isNew outputs d = true) :
    e.text.same d.text = false := by
  rw [isNew, Bool.not_eq_false', List.any_eq_true] at hshared
  obtain ⟨g, hg, hsame⟩ := hshared
  obtain ⟨p, hp, rfl⟩ := List.mem_map.mp hg
  by_contra h
  have hpd := p.1.fair.trans hsame (by simpa using h)
  rw [isNew_eq_true.mp hd p hp] at hpd
  cases hpd

theorem claim_shared {e : Entry} (hdistinct : Distinct (outputs.map Prod.fst))
    (hshared : isNew outputs e = false) :
    ((Scope.mk [] outputs).claim e.text e.field e.target.type).2.outputs =
      outputs.map (fill e.text e.field) := by
  rw [Scope.claim, shareOutput_eq hdistinct (by simpa [isNew] using hshared)]

theorem claim_new {e : Entry} (hnew : isNew outputs e = true) :
    ((Scope.mk [] outputs).claim e.text e.field e.target.type).2.outputs =
      outputs ++ [claimed outputs.length e] := by
  have hnone := shareOutput_isSome e.text e.field outputs
  rw [isNew, Bool.not_eq_true'] at hnew
  rw [hnew, Option.isSome_eq_false_iff, Option.isNone_iff_eq_none] at hnone
  rw [Scope.claim, hnone, claimed]

theorem distinct_claimed {e : Entry} (hdistinct : Distinct (outputs.map Prod.fst))
    (hnew : isNew outputs e = true) (n : Nat) :
    Distinct ((outputs ++ [claimed n e]).map Prod.fst) := by
  rw [List.map_append, Distinct, List.pairwise_append]
  refine ⟨hdistinct, List.pairwise_singleton _ _, fun g hg f hf => ?_⟩
  obtain rfl : f = e.text := List.mem_singleton.mp hf
  obtain ⟨p, hp, rfl⟩ := List.mem_map.mp hg
  exact isNew_eq_true.mp hnew p hp

/-- The entries that claim outputs behind an entry are the same without it. -/
theorem claimants_cons {e : Entry} (outputs outputs' : List (Fragment × Output)) (h : Placed (e :: es))
    (hnew : ∀ d ∈ es, isNew outputs' d = (isNew outputs d && !e.text.same d.text)) (n : Nat) :
    (((firsts es).filter fun d => !e.text.same d.text).filter (isNew outputs)).mapIdx
        (fun k d => (d.text, output (e :: es) (n + k) d)) =
      ((firsts es).filter (isNew outputs')).mapIdx fun k d => (d.text, output es (n + k) d) := by
  have hfilter : ((firsts es).filter fun d => !e.text.same d.text).filter (isNew outputs) =
      (firsts es).filter (isNew outputs') := by
    rw [List.filter_filter]
    exact List.filter_congr fun d hd => (hnew d (mem_firsts.mp hd).1).symm
  rw [hfilter]
  refine List.mapIdx_eq_mapIdx_iff.mpr fun k hk => ?_
  obtain ⟨hd, hd'⟩ := List.mem_filter.mp (List.getElem_mem hk)
  have hmem := (mem_firsts.mp hd).1
  rw [hnew _ hmem, Bool.and_eq_true, Bool.not_eq_true'] at hd'
  simp only [output, sharing_cons h hmem hd'.2]

/-- Claims of outputs one after another: outputs that were there are given fields, and entries that
stand first and have a new text are given outputs. -/
theorem claimAll_eq (h : Placed es) (outputs : List (Fragment × Output)) (hdistinct : Distinct (outputs.map Prod.fst)) :
    claimAll outputs (es.map written) = outputs.map (fillAll es) ++
      ((firsts es).filter (isNew outputs)).mapIdx fun k e => (e.text, output es (outputs.length + k) e) := by
  induction es generalizing outputs with
  | nil =>
    have hfill : fillAll [] = id := by
      funext p
      exact fillAll_nil p
    simp [claimAll, firsts, hfill]
  | cons e es ih =>
    -- one claim, then the rest by induction on whatever outputs there are now
    have hes : Placed es := (List.pairwise_cons.mp h).2
    have hstep : claimAll outputs ((e :: es).map written) =
      claimAll ((Scope.mk [] outputs).claim e.text e.field e.target.type).2.outputs (es.map written) := rfl
    rw [hstep, firsts_cons h]
    cases hnew : isNew outputs e with
    | false =>
      have hclaimants := claimants_cons outputs (outputs.map (fill e.text e.field)) h (fun d _ => by
        rw [isNew_fill]
        cases hd : isNew outputs d with
        | false => rfl
        | true => rw [not_same_of_isNew hnew hd]; rfl) outputs.length
      have hdistinct' : Distinct ((outputs.map (fill e.text e.field)).map Prod.fst) := by
        rwa [fill_texts]
      rw [claim_shared hdistinct hnew, ih hes _ hdistinct', List.map_map, List.length_map,
        List.filter_cons_of_neg (by simp [hnew]), hclaimants]
      congr 1
      exact List.map_congr_left fun p _ => (fillAll_cons e p).symm
    | true =>
      have hclaimants := claimants_cons outputs _ h
        (fun d _ => isNew_claimed outputs.length e d) (outputs.length + 1)
      have hold : outputs.map (fillAll (e :: es)) = outputs.map (fillAll es) := by
        refine List.map_congr_left fun p hp => ?_
        rw [fillAll_cons, fill, if_neg (by simp [isNew_eq_true.mp hnew p hp])]
      rw [claim_new hnew, ih hes _ (distinct_claimed hdistinct hnew _),
        List.filter_cons_of_pos (by simp [hnew]), List.map_append, hold, List.length_append,
        List.length_singleton, ← hclaimants, List.append_assoc, List.mapIdx_cons, List.map_singleton,
        fillAll_claimed h]
      simp [Nat.add_assoc, Nat.add_comm 1]

/-- The outputs of a list: those of its entries that stand first. -/
theorem claimAll_nil (h : Placed es) : claimAll [] (es.map written) =
    (firsts es).mapIdx fun k e => (e.text, output es k e) := by
  have hnew : (firsts es).filter (isNew []) = firsts es := List.filter_eq_self.mpr fun e _ => rfl
  simpa [hnew] using claimAll_eq h [] List.Pairwise.nil

end Entry

/-- The texts of outputs are those of the entries that are written. -/
theorem claimAll_texts (outputs : List (Fragment × Output)) (es : List (Target × Fragment)) :
    (claimAll outputs es).map Prod.fst =
      outputs.map Prod.fst ++ (Target.kept (outputs.map Prod.fst) es).map Prod.snd := by
  induction es generalizing outputs with
  | nil => simp [claimAll, Target.kept]
  | cons e es ih =>
    obtain ⟨t, f⟩ := e
    have hstep : claimAll outputs ((t, f) :: es) =
      claimAll ((Scope.mk [] outputs).claim f t.field t.type).2.outputs es := rfl
    rw [hstep, ih, claim_texts, Target.kept]
    by_cases hshared : (outputs.map Prod.fst).any (·.same f)
    · rw [if_pos hshared, if_pos hshared]
    · rw [if_neg hshared, if_neg hshared]
      simp

theorem map_mapIdx {α β γ : Type} (g : β → γ) (f : Nat → α → β) (l : List α) :
    (l.mapIdx f).map g = l.mapIdx fun i a => g (f i a) := by
  refine List.ext_getElem? fun i => ?_
  simp [Function.comp_def]

theorem Entry.kept_texts {es : List Entry} (h : Placed es) :
    (Target.kept [] (es.map written)).map Prod.snd = (firsts es).map text := by
  have htexts := claimAll_texts [] (es.map written)
  rw [claimAll_nil h, map_mapIdx] at htexts
  refine htexts.symm.trans (List.mapIdx_eq_iff.mpr fun i => ?_)
  rw [List.getElem?_map]

theorem Entry.claimAll_outputs {es : List Entry} (h : Placed es) :
    (claimAll [] (es.map written)).map Prod.snd = (firsts es).mapIdx (output es) := by
  rw [claimAll_nil h, map_mapIdx]

end TypedSql.Sql

import TypedSql.Connection.Certificate
import Mathlib.Data.List.Infix
import Mathlib.Data.List.Sort

/-! Bundles of certificates: the pieces of a text that its blocks are cut from, which texts are refused, and when
there is one block for each certificate that begins. -/
namespace TypedSql.Connection

/-- A marker stands at a place of a text. -/
def StandsAt (marker text : List Char) (place : Nat) : Prop := marker <+: text.drop place

instance (marker text : List Char) (place : Nat) : Decidable (StandsAt marker text place) :=
  inferInstanceAs (Decidable (_ <+: _))

/-- The places at which a marker stands. -/
def places (marker text : List Char) : List Nat := (List.range text.length).filter (StandsAt marker text)

/-- The first place from an origin on at which a marker stands. -/
structure FirstFrom (marker text : List Char) (origin place : Nat) : Prop where
  origin_le : origin ≤ place
  stands : StandsAt marker text place
  first : ∀ earlier, origin ≤ earlier → earlier < place → ¬ StandsAt marker text earlier

/-- A piece of a text, from the marker that a certificate begins with to the next marker that one ends with. -/
@[ext]
structure Piece (text : List Char) where
  start : Nat
  last : Nat
  begins : StandsAt beginMarker text start
  ends : FirstFrom endMarker text start last

namespace Piece

variable {text : List Char}

def stop (piece : Piece text) : Nat := piece.last + endMarker.length

def block (piece : Piece text) : List Char := (text.drop piece.start).take (piece.stop - piece.start)

end Piece

/-- A place that one of the pieces takes up. -/
def Covered {text : List Char} (pieces : List (Piece text)) (place : Nat) : Prop :=
  ∃ piece ∈ pieces, piece.start ≤ place ∧ place < piece.stop

instance {text : List Char} (pieces : List (Piece text)) (place : Nat) : Decidable (Covered pieces place) :=
  inferInstanceAs (Decidable (∃ piece ∈ pieces, _ ∧ _))

/-- The pieces behind an origin, one behind the other. What could be a piece and is none begins in one of them. -/
structure Cuts {text : List Char} (origin : Nat) (pieces : List (Piece text)) : Prop where
  inOrder : pieces.Pairwise (·.stop ≤ ·.start)
  behind : ∀ piece ∈ pieces, origin ≤ piece.start
  covers : ∀ piece : Piece text, origin ≤ piece.start → Covered pieces piece.start

/-- What begins at a place ends before the next certificate begins. -/
def Closed (text : List Char) (place : Nat) : Prop :=
  ∃ last ∈ places endMarker text, place ≤ last ∧
    ∀ next ∈ places beginMarker text, place < next → last + endMarker.length ≤ next

instance (text : List Char) (place : Nat) : Decidable (Closed text place) :=
  inferInstanceAs (Decidable (∃ last ∈ places endMarker text, _ ∧ ∀ next ∈ places beginMarker text, _ → _))

section Markers

variable {marker text : List Char} {origin place : Nat}

theorem StandsAt.add_length_le (h : StandsAt marker text place) (hne : marker ≠ []) :
    place + marker.length ≤ text.length := by
  have hlength := h.length_le
  have hpos := List.length_pos_iff.mpr hne
  rw [List.length_drop] at hlength
  omega

theorem mem_places (hne : marker ≠ []) : place ∈ places marker text ↔ StandsAt marker text place := by
  simp only [places, List.mem_filter, List.mem_range, decide_eq_true_eq, and_iff_right_iff_imp]
  intro h
  have hlength := h.add_length_le hne
  have hpos := List.length_pos_iff.mpr hne
  omega

theorem places_pairwise (marker text : List Char) : (places marker text).Pairwise (· < ·) :=
  List.pairwise_lt_range.filter _

theorem places_eq_singleton (hne : marker ≠ []) (h : ∀ other, StandsAt marker text other ↔ other = place) :
    places marker text = [place] :=
  (places_pairwise marker text).eq_of_mem_iff (List.pairwise_singleton _ _) fun other => by
    rw [mem_places hne, h, List.mem_singleton]

theorem FirstFrom.le_of_stands (h : FirstFrom marker text origin place) {other : Nat} (horigin : origin ≤ other)
    (hstands : StandsAt marker text other) : place ≤ other :=
  not_lt.mp fun hlt => h.first other horigin hlt hstands

theorem FirstFrom.unique {other : Nat} (h : FirstFrom marker text origin place)
    (h' : FirstFrom marker text origin other) : place = other :=
  le_antisymm (h.le_of_stands h'.origin_le h'.stands) (h'.le_of_stands h.origin_le h.stands)

theorem exists_firstFrom {other : Nat} (horigin : origin ≤ other) (hstands : StandsAt marker text other) :
    ∃ place, FirstFrom marker text origin place := by
  have hsome : ∃ place, origin ≤ place ∧ StandsAt marker text place := ⟨other, horigin, hstands⟩
  exact ⟨Nat.find hsome, (Nat.find_spec hsome).1, (Nat.find_spec hsome).2,
    fun earlier horigin hlt h => Nat.find_min hsome hlt ⟨horigin, h⟩⟩

/-- Splitting a text at a marker finds the first place at which it stands, if there is one. -/
theorem splitAtMarker_eq (hne : marker ≠ []) (text : List Char) :
    (splitAtMarker marker text = none ∧ ∀ place, ¬ StandsAt marker text place) ∨
      ∃ place, FirstFrom marker text 0 place ∧
        splitAtMarker marker text = some (text.take place, text.drop place) := by
  induction text with
  | nil =>
    refine .inl ⟨by simp [splitAtMarker, hne], fun place h => ?_⟩
    rw [StandsAt, List.drop_nil, List.prefix_nil] at h
    exact hne h
  | cons c text ih =>
    rw [splitAtMarker]
    split_ifs with hhere
    · exact .inr ⟨0, ⟨le_rfl, List.isPrefixOf_iff_prefix.mp hhere, fun _ _ hlt => absurd hlt (Nat.not_lt_zero _)⟩, rfl⟩
    · have hstart : ¬ StandsAt marker (c :: text) 0 := fun h => hhere (List.isPrefixOf_iff_prefix.mpr h)
      obtain ⟨hnone, hnowhere⟩ | ⟨place, hfirst, hsome⟩ := ih
      · refine .inl ⟨by rw [hnone, Option.map_none], fun place => ?_⟩
        cases place with
        | zero => exact hstart
        | succ place => exact hnowhere place
      · refine .inr ⟨place + 1, ⟨Nat.zero_le _, hfirst.stands, fun earlier _ hlt => ?_⟩, ?_⟩
        · cases earlier with
          | zero => exact hstart
          | succ earlier => exact hfirst.first earlier (Nat.zero_le _) (by omega)
        · rw [hsome, Option.map_some, List.take_succ_cons, List.drop_succ_cons]

/-- What is left of a text from an origin on is split at the first marker from there. -/
theorem splitAtMarker_drop (hne : marker ≠ []) (text : List Char) (origin : Nat) :
    (splitAtMarker marker (text.drop origin) = none ∧ ∀ place, origin ≤ place → ¬ StandsAt marker text place) ∨
      ∃ place, FirstFrom marker text origin place ∧ splitAtMarker marker (text.drop origin) =
        some ((text.drop origin).take (place - origin), text.drop place) := by
  have hstands (place : Nat) : StandsAt marker (text.drop origin) place ↔ StandsAt marker text (origin + place) := by
    rw [StandsAt, List.drop_drop, StandsAt]
  obtain ⟨hnone, hnowhere⟩ | ⟨place, hfirst, hsome⟩ := splitAtMarker_eq hne (text.drop origin)
  · refine .inl ⟨hnone, fun place hle h => hnowhere (place - origin) ((hstands _).mpr ?_)⟩
    rwa [Nat.add_sub_cancel' hle]
  · refine .inr ⟨origin + place, ⟨Nat.le_add_right _ _, (hstands _).mp hfirst.stands, fun earlier hle hlt h => ?_⟩, ?_⟩
    · refine hfirst.first (earlier - origin) (Nat.zero_le _) (by omega) ((hstands _).mpr ?_)
      rwa [Nat.add_sub_cancel' hle]
    · rw [hsome, List.drop_drop, Nat.add_sub_cancel_left]

theorem beginMarker_ne_nil : beginMarker ≠ [] := by decide

theorem endMarker_ne_nil : endMarker ≠ [] := by decide

end Markers

namespace Piece

variable {text : List Char} (piece : Piece text)

theorem eq_of_start {piece other : Piece text} (h : piece.start = other.start) : piece = other :=
  Piece.ext h (piece.ends.unique (h ▸ other.ends))

/-- Wherever the first marker of a certificate has a last one behind it, there is a piece. -/
theorem exists_start {place last : Nat} (hbegins : StandsAt beginMarker text place) (hle : place ≤ last)
    (hends : StandsAt endMarker text last) : ∃ piece : Piece text, piece.start = place := by
  obtain ⟨last, hlast⟩ := exists_firstFrom hle hends
  exact ⟨⟨place, last, hbegins, hlast⟩, rfl⟩

theorem stop_le_length : piece.stop ≤ text.length :=
  piece.ends.stands.add_length_le endMarker_ne_nil

/-- The two markers share their dashes at most. -/
theorem start_add_le_last : piece.start + 22 ≤ piece.last := by
  by_contra! hlt
  obtain ⟨shift, hlast⟩ := Nat.exists_eq_add_of_le piece.ends.origin_le
  have hbegins : beginMarker.drop shift <+: text.drop piece.last := by
    rw [hlast, ← List.drop_drop]
    exact List.IsPrefix.drop piece.begins shift
  have hdiffer : ∀ shift < 22, ¬ beginMarker.drop shift <+: endMarker ∧ ¬ endMarker <+: beginMarker.drop shift := by
    decide
  obtain ⟨hleft, hright⟩ := hdiffer shift (by omega)
  exact (List.prefix_or_prefix_of_prefix hbegins piece.ends.stands).elim hleft hright

theorem start_lt_stop : piece.start < piece.stop :=
  Nat.lt_of_lt_of_le (Nat.lt_of_lt_of_le (by omega) piece.start_add_le_last) (Nat.le_add_right _ _)

theorem take_append_endMarker :
    (text.drop piece.start).take (piece.last - piece.start) ++ endMarker = piece.block := by
  have hle := piece.ends.origin_le
  have hlength : piece.stop - piece.start = piece.last - piece.start + endMarker.length := by
    rw [stop]
    omega
  have hends : endMarker = (text.drop piece.last).take endMarker.length :=
    List.prefix_iff_eq_take.mp piece.ends.stands
  rw [block, hlength, List.take_add, List.drop_drop, Nat.add_sub_cancel' hle, ← hends]

theorem block_length : piece.block.length = piece.stop - piece.start := by
  have hstop := piece.stop_le_length
  rw [block, List.length_take, List.length_drop]
  omega

/-- What stands in a block stands in the text. -/
theorem standsAt_block {marker : List Char} {place : Nat} (hne : marker ≠ []) : StandsAt marker piece.block place ↔
    StandsAt marker text (piece.start + place) ∧ piece.start + place + marker.length ≤ piece.stop := by
  have hpos := List.length_pos_iff.mpr hne
  have hstart := piece.start_lt_stop
  rw [StandsAt, block, List.drop_take, List.prefix_take_iff, List.drop_drop, StandsAt]
  refine and_congr_right fun _ => ?_
  omega

theorem beginMarker_prefix : beginMarker <+: piece.block := by
  have hlast := piece.start_add_le_last
  have hroom : piece.start + 0 + beginMarker.length ≤ piece.stop := by
    change piece.start + 0 + 27 ≤ piece.last + 25
    omega
  have hbegins : StandsAt beginMarker piece.block 0 :=
    (piece.standsAt_block beginMarker_ne_nil).mpr ⟨piece.begins, hroom⟩
  exact hbegins

/-- A block has one last marker, at its end. -/
theorem places_endMarker : places endMarker piece.block = [piece.block.length - endMarker.length] := by
  refine places_eq_singleton endMarker_ne_nil fun place => ?_
  have hle := piece.ends.origin_le
  rw [piece.standsAt_block endMarker_ne_nil, block_length, stop]
  constructor
  · rintro ⟨hstands, hstop⟩
    have hlast := piece.ends.le_of_stands (Nat.le_add_right _ _) hstands
    omega
  · intro h
    have hlast : piece.start + place = piece.last := by omega
    rw [hlast]
    exact ⟨piece.ends.stands, le_rfl⟩

/-- No certificate begins in a piece whose own certificate is closed. -/
theorem stop_le_of_closed (h : Closed text piece.start) {next : Nat} (hnext : StandsAt beginMarker text next)
    (hlt : piece.start < next) : piece.stop ≤ next := by
  obtain ⟨last, hlast, hle, hbefore⟩ := h
  have hfirst := piece.ends.le_of_stands hle ((mem_places endMarker_ne_nil).mp hlast)
  have hstop := hbefore next ((mem_places beginMarker_ne_nil).mpr hnext) hlt
  rw [stop]
  omega

theorem places_beginMarker (h : Closed text piece.start) : places beginMarker piece.block = [0] := by
  refine places_eq_singleton beginMarker_ne_nil fun place => ?_
  constructor
  · intro hstands
    obtain ⟨hstands, hstop⟩ := (piece.standsAt_block beginMarker_ne_nil).mp hstands
    by_contra hne
    have hlt := piece.stop_le_of_closed h hstands (by omega)
    have hlength : 0 < beginMarker.length := by decide
    omega
  · rintro rfl
    exact piece.beginMarker_prefix

end Piece

section Pieces

variable {text : List Char} {origin : Nat} {piece : Piece text} {pieces : List (Piece text)}

theorem covered_cons {place : Nat} :
    Covered (piece :: pieces) place ↔ (piece.start ≤ place ∧ place < piece.stop) ∨ Covered pieces place :=
  List.exists_mem_cons_iff _ _ _

theorem uncovered_cons {place : Nat} (hle : piece.start ≤ place) :
    ¬ Covered (piece :: pieces) place ↔ piece.stop ≤ place ∧ ¬ Covered pieces place := by
  rw [covered_cons, not_or, and_iff_right hle, not_lt]

theorem cuts_nil : Cuts origin ([] : List (Piece text)) ↔ ∀ piece : Piece text, piece.start < origin := by
  constructor
  · intro h piece
    by_contra! hle
    obtain ⟨_, hmem, -⟩ := h.covers piece hle
    exact List.not_mem_nil hmem
  · intro h
    exact ⟨.nil, List.forall_mem_nil _, fun piece hle => absurd (h piece) (by omega)⟩

/-- The first of the pieces is the first that there could be, the others are the pieces behind it. -/
theorem cuts_cons : Cuts origin (piece :: pieces) ↔ origin ≤ piece.start ∧
    (∀ other : Piece text, origin ≤ other.start → piece.start ≤ other.start) ∧ Cuts piece.stop pieces := by
  have hstop := piece.start_lt_stop
  constructor
  · rintro ⟨horder, hbehind, hcovers⟩
    obtain ⟨hfirst, hlater⟩ := List.pairwise_cons.mp horder
    obtain ⟨hpiece, -⟩ := List.forall_mem_cons.mp hbehind
    refine ⟨hpiece, fun other hle => ?_, hlater, hfirst, fun other hle => ?_⟩
    · obtain ⟨found, hmem, hstart, -⟩ := hcovers other hle
      obtain rfl | hmem := List.mem_cons.mp hmem
      · exact hstart
      · have := hfirst found hmem
        omega
    · exact (covered_cons.mp (hcovers other (by omega))).resolve_left (by omega)
  · rintro ⟨hpiece, hfirst, hcuts⟩
    refine ⟨.cons hcuts.behind hcuts.inOrder,
      List.forall_mem_cons.mpr ⟨hpiece, fun other hmem => ?_⟩, fun other hle => covered_cons.mpr ?_⟩
    · have := hcuts.behind other hmem
      omega
    · by_cases hstart : other.start < piece.stop
      · exact .inl ⟨hfirst other hle, hstart⟩
      · exact .inr (hcuts.covers other (by omega))

/-- A text has its pieces in one way. -/
theorem Cuts.unique {others : List (Piece text)} (h : Cuts origin pieces) (h' : Cuts origin others) :
    others = pieces := by
  induction pieces generalizing origin others with
  | nil =>
    cases others with
    | nil => rfl
    | cons other others => exact absurd (cuts_nil.mp h other) (not_lt.mpr (cuts_cons.mp h').1)
  | cons piece pieces ih =>
    obtain ⟨hpiece, hfirst, hlater⟩ := cuts_cons.mp h
    cases others with
    | nil => exact absurd (cuts_nil.mp h' piece) (not_lt.mpr hpiece)
    | cons other others =>
      obtain ⟨hother, hfirst', hlater'⟩ := cuts_cons.mp h'
      obtain rfl : other = piece := Piece.eq_of_start (le_antisymm (hfirst' piece hpiece) (hfirst other hother))
      rw [ih hlater hlater']

end Pieces

section Scanning

/-- One step finds no certificate, one that never ends, or a piece and goes on behind it. -/
theorem blocksFrom_step (text : List Char) (fuel origin : Nat) :
    (blocksFrom (fuel + 1) (text.drop origin) = .ok [] ∧
      ∀ place, origin ≤ place → ¬ StandsAt beginMarker text place) ∨
    (blocksFrom (fuel + 1) (text.drop origin) = .error .unterminatedCertificate ∧
      ∃ start, FirstFrom beginMarker text origin start ∧ ∀ last, start ≤ last → ¬ StandsAt endMarker text last) ∨
    ∃ piece : Piece text, FirstFrom beginMarker text origin piece.start ∧
      blocksFrom (fuel + 1) (text.drop origin) =
        (piece.block :: ·) <$> blocksFrom fuel (text.drop piece.stop) := by
  rw [blocksFrom]
  obtain ⟨hnone, hnowhere⟩ | ⟨start, hstart, hsome⟩ := splitAtMarker_drop beginMarker_ne_nil text origin
  · exact .inl ⟨by rw [hnone], hnowhere⟩
  rw [hsome]
  dsimp only
  obtain ⟨hnone, hnowhere⟩ | ⟨last, hlast, hsome⟩ := splitAtMarker_drop endMarker_ne_nil text start
  · exact .inr (.inl ⟨by rw [hnone], start, hstart, hnowhere⟩)
  · have hblock := Piece.take_append_endMarker ⟨start, last, hstart.stands, hlast⟩
    refine .inr (.inr ⟨⟨start, last, hstart.stands, hlast⟩, hstart, ?_⟩)
    rw [hsome, ← hblock]
    dsimp only
    rw [List.drop_drop]
    rfl

variable {text : List Char}

/-- What the scan of a text from an origin on makes of its pieces, unless a certificate begins behind them. -/
def scanned (origin : Nat) (pieces : List (Piece text)) : Except Problem (List (List Char)) :=
  if ∃ place ∈ places beginMarker text, origin ≤ place ∧ ¬ Covered pieces place then .error .unterminatedCertificate
  else .ok (pieces.map Piece.block)

theorem scanned_nil {origin : Nat} (hnowhere : ∀ place, origin ≤ place → ¬ StandsAt beginMarker text place) :
    scanned origin ([] : List (Piece text)) = .ok [] := by
  rw [scanned, if_neg, List.map_nil]
  rintro ⟨place, hplace, hle, -⟩
  exact hnowhere place hle ((mem_places beginMarker_ne_nil).mp hplace)

theorem scanned_open {origin start : Nat} (hstart : FirstFrom beginMarker text origin start) :
    scanned origin ([] : List (Piece text)) = .error .unterminatedCertificate :=
  if_pos ⟨start, (mem_places beginMarker_ne_nil).mpr hstart.stands, hstart.origin_le, by simp [Covered]⟩

theorem scanned_cons {origin : Nat} {piece : Piece text} (hstart : FirstFrom beginMarker text origin piece.start)
    (pieces : List (Piece text)) :
    scanned origin (piece :: pieces) = (piece.block :: ·) <$> scanned piece.stop pieces := by
  have hstop := piece.start_lt_stop
  have horigin := hstart.origin_le
  have hopen : (∃ place ∈ places beginMarker text, origin ≤ place ∧ ¬ Covered (piece :: pieces) place) ↔
      ∃ place ∈ places beginMarker text, piece.stop ≤ place ∧ ¬ Covered pieces place := by
    refine exists_congr fun place => and_congr_right fun hplace => ⟨fun ⟨hle, hopen⟩ => ?_, fun ⟨hle, hopen⟩ => ?_⟩
    · have hbehind := hstart.le_of_stands hle ((mem_places beginMarker_ne_nil).mp hplace)
      exact (uncovered_cons hbehind).mp hopen
    · exact ⟨by omega, (uncovered_cons (by omega)).mpr ⟨hle, hopen⟩⟩
  simp only [scanned, hopen]
  split_ifs <;> rfl

/-- What is left behind an origin is scanned into its pieces. -/
theorem blocksFrom_cuts (text : List Char) (fuel origin : Nat) (hfuel : text.length ≤ origin + fuel) :
    ∃ pieces : List (Piece text),
      Cuts origin pieces ∧ blocksFrom fuel (text.drop origin) = scanned origin pieces := by
  induction fuel generalizing origin with
  | zero =>
    have hnowhere (place : Nat) (hle : origin ≤ place) : ¬ StandsAt beginMarker text place := fun hstands => by
      have hlength := hstands.add_length_le beginMarker_ne_nil
      have hpos : 0 < beginMarker.length := by decide
      omega
    exact ⟨[], cuts_nil.mpr fun piece => not_le.mp fun hle => hnowhere _ hle piece.begins, (scanned_nil hnowhere).symm⟩
  | succ fuel ih =>
    obtain ⟨hresult, hnowhere⟩ | ⟨hresult, start, hstart, hnowhere⟩ | ⟨piece, hstart, hresult⟩ :=
      blocksFrom_step text fuel origin
    · refine ⟨[], cuts_nil.mpr fun piece => not_le.mp fun hle => hnowhere _ hle piece.begins, ?_⟩
      rw [hresult, scanned_nil hnowhere]
    · refine ⟨[], cuts_nil.mpr fun piece => not_le.mp fun hle => ?_, ?_⟩
      · exact hnowhere _ ((hstart.le_of_stands hle piece.begins).trans piece.ends.origin_le) piece.ends.stands
      · rw [hresult, scanned_open hstart]
    · have hstop := piece.start_lt_stop
      have horigin := hstart.origin_le
      obtain ⟨pieces, hcuts, hlater⟩ := ih piece.stop (by omega)
      have hfirst (other : Piece text) (hle : origin ≤ other.start) : piece.start ≤ other.start :=
        hstart.le_of_stands hle other.begins
      exact ⟨piece :: pieces, cuts_cons.mpr ⟨horigin, hfirst, hcuts⟩, by rw [hresult, hlater, scanned_cons hstart]⟩

end Scanning

section Closing

variable {text : List Char} {pieces : List (Piece text)}

theorem Cuts.stop_le_start {origin : Nat} (h : Cuts origin pieces) {piece other : Piece text} (hpiece : piece ∈ pieces)
    (hother : other ∈ pieces) (hlt : piece.start < other.start) : piece.stop ≤ other.start := by
  have hself : ∀ piece ∈ pieces, piece.start < piece.start → piece.stop ≤ piece.start :=
    fun piece _ hlt => absurd hlt (lt_irrefl _)
  have hforward : pieces.Pairwise fun piece other => piece.start < other.start → piece.stop ≤ other.start :=
    h.inOrder.imp fun {piece other} hle (_ : piece.start < other.start) => hle
  have hbackward : pieces.Pairwise fun other piece => piece.start < other.start → piece.stop ≤ other.start :=
    h.inOrder.imp fun {other _} hle hlt => by
      have := other.start_lt_stop
      omega
  exact List.Pairwise.forall_of_forall_of_flip hself hforward hbackward hpiece hother hlt

theorem Cuts.starts_pairwise {origin : Nat} (h : Cuts origin pieces) : (pieces.map Piece.start).Pairwise (· < ·) :=
  List.pairwise_map.mpr (h.inOrder.imp fun {piece _} hle => Nat.lt_of_lt_of_le piece.start_lt_stop hle)

theorem starts_subset (pieces : List (Piece text)) : pieces.map Piece.start ⊆ places beginMarker text := by
  intro place hplace
  obtain ⟨piece, -, rfl⟩ := List.mem_map.mp hplace
  exact (mem_places beginMarker_ne_nil).mpr piece.begins

/-- There is one piece for each certificate that begins if and only if each ends before the next one begins. -/
theorem Cuts.starts_iff (h : Cuts 0 pieces) : pieces.map Piece.start = places beginMarker text ↔
    ∀ place ∈ places beginMarker text, Closed text place := by
  constructor
  · intro hstarts place hplace
    obtain ⟨piece, hpiece, rfl⟩ := List.mem_map.mp (hstarts ▸ hplace)
    have hlast := (mem_places endMarker_ne_nil).mpr piece.ends.stands
    refine ⟨piece.last, hlast, piece.ends.origin_le, fun next hnext hlt => ?_⟩
    obtain ⟨other, hother, rfl⟩ := List.mem_map.mp (hstarts ▸ hnext)
    exact h.stop_le_start hpiece hother hlt
  · intro hclosed
    refine h.starts_pairwise.eq_of_mem_iff (places_pairwise _ _) fun place =>
      ⟨fun hplace => starts_subset pieces hplace, fun hplace => ?_⟩
    have hstands := (mem_places beginMarker_ne_nil).mp hplace
    obtain ⟨last, hlast, hle, -⟩ := hclosed place hplace
    obtain ⟨piece, rfl⟩ := Piece.exists_start hstands hle ((mem_places endMarker_ne_nil).mp hlast)
    obtain ⟨found, hfound, hstart, hstop⟩ := h.covers piece (Nat.zero_le _)
    have hfoundClosed := hclosed found.start ((mem_places beginMarker_ne_nil).mpr found.begins)
    have hsame : found.start = piece.start := by
      by_contra hne
      exact not_le.mpr hstop (found.stop_le_of_closed hfoundClosed hstands (by omega))
    exact List.mem_map.mpr ⟨found, hfound, hsame⟩

theorem Cuts.starts_of_length {origin : Nat} (h : Cuts origin pieces)
    (hlength : pieces.length = (places beginMarker text).length) :
    pieces.map Piece.start = places beginMarker text := by
  have hsub : (pieces.map Piece.start).Subperm (places beginMarker text) :=
    List.subperm_of_subset h.starts_pairwise.nodup (starts_subset pieces)
  have hperm := hsub.perm_of_length_le (by rw [List.length_map, hlength])
  exact h.starts_pairwise.eq_of_mem_iff (places_pairwise _ _) fun _ => hperm.mem_iff

/-- The blocks of a text are its pieces, if there are any and no certificate begins behind them. -/
theorem certificateBlocks_eq (bundle : String) : ∃ pieces : List (Piece bundle.toList), Cuts 0 pieces ∧
    certificateBlocks bundle =
      (if ∃ place ∈ places beginMarker bundle.toList, ¬ Covered pieces place then .error .unterminatedCertificate
      else if pieces = [] then .error .noCertificates
      else .ok (pieces.map fun piece => String.ofList piece.block)) := by
  obtain ⟨pieces, hcuts, hblocks⟩ := blocksFrom_cuts bundle.toList bundle.length 0
    (by rw [String.length_toList, Nat.zero_add])
  refine ⟨pieces, hcuts, ?_⟩
  rw [List.drop_zero] at hblocks
  rw [certificateBlocks, hblocks, scanned]
  simp only [Nat.zero_le, true_and]
  split_ifs with hopen hnone
  · rfl
  · rw [hnone]
    rfl
  · have hempty : (pieces.map Piece.block).isEmpty = false := by simpa using hnone
    change (if (pieces.map Piece.block).isEmpty then _ else _) = _
    rw [hempty, List.map_map]
    rfl

/-- Every text is cut into pieces in one way. Its blocks are these pieces, and it is refused if a certificate begins
behind them or there are none. A block starts with a first marker and has no last marker but at its end. There is one
block for each first marker if and only if every certificate ends before the next one begins: one that does not, but
has a last marker behind it, comes out as one block with the next. -/
theorem certificateBlocks_cuts (bundle : String) : ∃ pieces : List (Piece bundle.toList),
    (Cuts 0 pieces ∧ ∀ others, Cuts 0 others → others = pieces) ∧
      certificateBlocks bundle =
        (if ∃ place ∈ places beginMarker bundle.toList, ¬ Covered pieces place then .error .unterminatedCertificate
        else if pieces = [] then .error .noCertificates
        else .ok (pieces.map fun piece => String.ofList piece.block)) ∧
      (∀ piece ∈ pieces, beginMarker <+: piece.block ∧
        places endMarker piece.block = [piece.block.length - endMarker.length] ∧
        (Closed bundle.toList piece.start → places beginMarker piece.block = [0])) ∧
      (pieces.map Piece.start = places beginMarker bundle.toList ↔
        ∀ place ∈ places beginMarker bundle.toList, Closed bundle.toList place) ∧
      ((∃ blocks, certificateBlocks bundle = .ok blocks ∧
          blocks.length = (places beginMarker bundle.toList).length) ↔
        places beginMarker bundle.toList ≠ [] ∧
          ∀ place ∈ places beginMarker bundle.toList, Closed bundle.toList place) := by
  obtain ⟨pieces, hcuts, hblocks⟩ := certificateBlocks_eq bundle
  refine ⟨pieces, ⟨hcuts, fun _ => hcuts.unique⟩, hblocks, fun piece _ =>
    ⟨piece.beginMarker_prefix, piece.places_endMarker, piece.places_beginMarker⟩, hcuts.starts_iff, ?_⟩
  rw [hblocks, ← hcuts.starts_iff]
  constructor
  · rintro ⟨blocks, hok, hlength⟩
    split_ifs at hok with hopen hnone
    cases hok
    have hstarts := hcuts.starts_of_length (by rw [← hlength, List.length_map])
    exact ⟨by simpa [← hstarts] using hnone, hstarts⟩
  · rintro ⟨hsome, hstarts⟩
    have hcovered : ¬ ∃ place ∈ places beginMarker bundle.toList, ¬ Covered pieces place := by
      rintro ⟨place, hplace, hopen⟩
      obtain ⟨piece, hpiece, rfl⟩ := List.mem_map.mp (hstarts ▸ hplace)
      exact hopen ⟨piece, hpiece, le_rfl, piece.start_lt_stop⟩
    have hnonempty : pieces ≠ [] := by simpa [← hstarts] using hsome
    rw [if_neg hcovered, if_neg hnonempty]
    exact ⟨_, rfl, by rw [List.length_map, ← hstarts, List.length_map]⟩

/-- The first certificate does not end before the second one begins, and the two come out as one block. -/
theorem certificateBlocks_merged :
    let bundle := "-----BEGIN CERTIFICATE-----\nAAAA\n" ++
      "-----BEGIN CERTIFICATE-----\nBBBB\n-----END CERTIFICATE-----\n"
    places beginMarker bundle.toList = [0, 33] ∧ ¬ Closed bundle.toList 0 ∧ certificateBlocks bundle =
      .ok ["-----BEGIN CERTIFICATE-----\nAAAA\n-----BEGIN CERTIFICATE-----\nBBBB\n-----END CERTIFICATE-----"] := by
  decide +kernel

end Closing

end TypedSql.Connection

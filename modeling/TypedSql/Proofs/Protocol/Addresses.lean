import TypedSql.Protocol.Address
import TypedSql.Proofs.Protocol.Taking

/-! Network addresses read from their text: four numbers with points between them, or sixteen-bit groups with
colons between them, of which two colons in a row leave some out. -/
namespace TypedSql.Protocol.Address
open Text

/-- A number below 256, without zeros in front. -/
def readOctet? (s : List Char) : Option UInt8 :=
  let n := Nat.ofDigitChars 10 s 0
  if s.all Char.isDigit ∧ s ≠ [] ∧ (s.head? = some '0' → s = ['0']) ∧ n < 256 then some n.toUInt8 else none

def readV4? (text : List Char) : Option (List UInt8) :=
  let parts := text.splitOn '.'
  if parts.length = 4 then parts.mapM readOctet? else none

/-- The value of a hexadecimal digit. -/
def digit? (c : Char) : Option Nat := "0123456789abcdef".toList.idxOf? c.toLower

/-- The two bytes of a group. -/
def pair (g : Nat) : List UInt8 := [(g / 256).toUInt8, (g % 256).toUInt8]

/-- A group in one to four hexadecimal digits. -/
def readGroup? (s : List Char) : Option (List UInt8) :=
  if s ≠ [] ∧ s.length ≤ 4 then pair <$> s.foldlM (fun n c => (digit? c).map (16 * n + ·)) 0 else none

/-- Groups in a row; the last two may be written with points, if that is allowed where they stand. -/
def readGroups? (pointed : Bool) : List (List Char) → Option (List UInt8)
  | [] => some []
  | [last] => readGroup? last <|> if pointed then readV4? last else none
  | part :: parts => do return (← readGroup? part) ++ (← readGroups? pointed parts)

/-- Groups with colons between them, or none. -/
def readSide? (pointed : Bool) (text : List Char) : Option (List UInt8) :=
  if text = [] then some [] else readGroups? pointed (text.splitOn ':')

/-- What stands before and behind the first two colons in a row. -/
def cutColons : List Char → Option (List Char × List Char)
  | ':' :: ':' :: rest => some ([], rest)
  | c :: rest => (cutColons rest).map fun (front, back) => (c :: front, back)
  | [] => none

/-- Two colons in a row stand for groups of zeros, as many as are missing. -/
def readV6? (text : List Char) : Option (List UInt8) :=
  match cutColons text with
  | none => do
    let octets ← readSide? true text
    if octets.length = 16 then some octets else none
  | some (front, back) => do
    let before ← readSide? false front
    let behind ← readSide? true back
    if before.length + behind.length ≤ 14 then
      some (before ++ List.replicate (16 - before.length - behind.length) 0 ++ behind)
    else none

def readAddress? (text : List Char) : Option (List UInt8) :=
  if ':' ∈ text then readV6? text else readV4? text

/-- An address and how many of its bits are meant. -/
structure Network where
  octets : List UInt8
  bits : Nat
  deriving DecidableEq, Repr

/-- The network that a text names. No more bits can be meant than the address has. -/
def Network.read? (text : List Char) : Option Network :=
  match text.splitOn '/' with
  | [address] => (readAddress? address).map fun octets => ⟨octets, 8 * octets.length⟩
  | [address, bits] => do
    let octets ← readAddress? address
    let bits ← readOctet? bits
    if bits.toNat ≤ 8 * octets.length then some ⟨octets, bits.toNat⟩ else none
  | _ => none

/-- What stands in parts with separators between them. -/
private theorem mem_separated {sep c : Char} {parts : List (List Char)} (hc : c ∈ [sep].intercalate parts) :
    c = sep ∨ ∃ part ∈ parts, c ∈ part := by
  induction parts with
  | nil => simp at hc
  | cons part parts ih =>
    cases parts with
    | nil => exact .inr ⟨part, List.mem_cons_self, by simpa using hc⟩
    | cons next parts =>
      rw [List.intercalate_cons_cons, List.append_assoc, List.mem_append, List.mem_append, List.mem_singleton] at hc
      rcases hc with hc | rfl | hc
      · exact .inr ⟨part, List.mem_cons_self, hc⟩
      · exact .inl rfl
      · exact (ih hc).imp_right fun ⟨part, hpart, hc⟩ => ⟨part, List.mem_cons_of_mem _ hpart, hc⟩

section Fourfold

theorem v4Text_toList (octets : List UInt8) :
    (v4Text octets).toList = ['.'].intercalate (octets.map fun b => Nat.toDigits 10 b.toNat) := by
  rw [v4Text, String.toList_intercalate, List.map_map]
  exact congrArg _ (List.map_congr_left fun b _ => Nat.toList_repr)

theorem mem_v4Text {octets : List UInt8} {c : Char} (hc : c ∈ (v4Text octets).toList) : c = '.' ∨ c.isDigit = true := by
  rw [v4Text_toList] at hc
  rcases mem_separated hc with hpoint | ⟨part, hpart, hc⟩
  · exact .inl hpoint
  · obtain ⟨b, -, rfl⟩ := List.mem_map.mp hpart
    exact .inr (Nat.isDigit_of_mem_toDigits (by decide) (by decide) hc)

theorem v4Text_length {octets : List UInt8} (h : octets.length = 4) : 7 ≤ (v4Text octets).toList.length := by
  obtain ⟨a, b, c, d, rfl⟩ := List.length_eq_four.mp h
  have hdigits (x : UInt8) : 0 < (Nat.toDigits 10 x.toNat).length := Nat.length_toDigits_pos
  rw [v4Text_toList]
  simp only [List.map_cons, List.map_nil, List.intercalate_cons_cons, List.intercalate_singleton, List.length_append,
    List.length_singleton]
  have := hdigits a
  have := hdigits b
  have := hdigits c
  have := hdigits d
  omega

theorem readOctet?_toDigits (b : UInt8) : readOctet? (Nat.toDigits 10 b.toNat) = some b := by
  have hall : ∀ n < 256, readOctet? (Nat.toDigits 10 n) = some n.toUInt8 := by decide +kernel
  rw [hall b.toNat b.toNat_lt]
  exact congrArg some (UInt8.ofNat_toNat)

private theorem mapM_map_some {α β : Type} {f : α → β} {g : β → Option α} (h : ∀ a, g (f a) = some a) (l : List α) :
    (l.map f).mapM g = some l := by
  induction l with
  | nil => rfl
  | cons a l ih => simp [List.mapM_cons, h, ih]

theorem readV4?_v4Text {octets : List UInt8} (h : octets.length = 4) : readV4? (v4Text octets).toList = some octets := by
  have hpoint : ∀ part ∈ octets.map fun b => Nat.toDigits 10 b.toNat, '.' ∉ part := by
    intro part hpart hmem
    obtain ⟨b, -, rfl⟩ := List.mem_map.mp hpart
    exact absurd (Nat.isDigit_of_mem_toDigits (by decide) (by decide) hmem) (by decide)
  have hne : (octets.map fun b => Nat.toDigits 10 b.toNat) ≠ [] := by
    rw [ne_eq, List.map_eq_nil_iff]
    rintro rfl
    cases h
  have hsplit := List.splitOn_intercalate '.' hpoint hne
  rw [v4Text_toList, readV4?, hsplit, List.length_map, if_pos h, mapM_map_some readOctet?_toDigits]

end Fourfold

section Groups

/-- The hexadecimal digits of a number. -/
private theorem mem_toDigits {n : Nat} {c : Char} (hc : c ∈ Nat.toDigits 16 n) : ∃ d < 16, c = Nat.digitChar d := by
  induction n using Nat.strong_induction_on with
  | h n ih =>
    rw [Nat.toDigits_eq_if (by decide)] at hc
    split_ifs at hc with hn
    · exact ⟨n, hn, List.mem_singleton.mp hc⟩
    · rcases List.mem_append.mp hc with hc | hc
      · exact ih (n / 16) (by omega) hc
      · exact ⟨n % 16, by omega, List.mem_singleton.mp hc⟩

private theorem separator_notMem {c : Char} (hc : c ∈ [':', '.', '/']) (n : Nat) : c ∉ Nat.toDigits 16 n := by
  have hall : ∀ d < 16, Nat.digitChar d ∉ [':', '.', '/'] := by decide
  intro hmem
  obtain ⟨d, hd, rfl⟩ := mem_toDigits hmem
  exact hall d hd hc

private theorem foldlM_toDigits (n : Nat) :
    (Nat.toDigits 16 n).foldlM (fun n c => (digit? c).map (16 * n + ·)) 0 = some n := by
  have hdigit : ∀ d < 16, digit? (Nat.digitChar d) = some d := by decide +kernel
  induction n using Nat.strong_induction_on with
  | h n ih =>
    rw [Nat.toDigits_eq_if (by decide)]
    split_ifs with hn
    · simp [hdigit n hn]
    · have hlast : 16 * (n / 16) + n % 16 = n := Nat.div_add_mod n 16
      rw [List.foldlM_append, ih (n / 16) (by omega)]
      simp [hdigit (n % 16) (by omega), hlast]

theorem readGroup?_toDigits {n : Nat} (h : n < 2 ^ 16) : readGroup? (Nat.toDigits 16 n) = some (pair n) := by
  have hlength : (Nat.toDigits 16 n).length ≤ 4 := (Nat.length_toDigits_le_iff (by decide) (by decide)).mpr h
  rw [readGroup?, if_pos ⟨Nat.toDigits_ne_nil, hlength⟩, foldlM_toDigits]
  rfl

/-- The text of groups. -/
private def written (gs : List Nat) : List Char := [':'].intercalate (gs.map (Nat.toDigits 16))

private theorem groupsText_toList (gs : List Nat) : (groupsText gs).toList = written gs := by
  have hgroup (g : Nat) : (Text.padded 16 1 g).toList = Nat.toDigits 16 g := by
    have hlength : 1 - (Nat.toDigits 16 g).length = 0 := by
      have := Nat.length_toDigits_pos (b := 16) (n := g)
      omega
    rw [Text.padded, String.toList_ofList, hlength]
    rfl
  rw [groupsText, String.toList_intercalate, List.map_map]
  exact congrArg _ (List.map_congr_left fun g _ => hgroup g)

private theorem written_cons (g g' : Nat) (gs : List Nat) :
    written (g :: g' :: gs) = Nat.toDigits 16 g ++ ':' :: written (g' :: gs) := by
  simp [written, List.intercalate_cons_cons]

private theorem written_head (g : Nat) (gs : List Nat) (rest : List Char) :
    ∃ c s, written (g :: gs) ++ rest = c :: s ∧ c ≠ ':' := by
  obtain ⟨c, s, hc⟩ := List.exists_cons_of_ne_nil (Nat.toDigits_ne_nil (n := g) (b := 16))
  have hcolon : c ≠ ':' := fun h => separator_notMem (c := ':') (by simp) g (by rw [hc, h]; exact List.mem_cons_self)
  cases gs with
  | nil => exact ⟨c, s ++ rest, by simp [written, hc], hcolon⟩
  | cons g' gs => exact ⟨c, s ++ ':' :: written (g' :: gs) ++ rest, by simp [written_cons, hc], hcolon⟩

private theorem readGroups?_toDigits (pointed : Bool) {gs : List Nat} (h : ∀ g ∈ gs, g < 2 ^ 16) :
    readGroups? pointed (gs.map (Nat.toDigits 16)) = some (gs.flatMap pair) := by
  induction gs with
  | nil => rfl
  | cons g gs ih =>
    obtain ⟨hg, hgs⟩ := List.forall_mem_cons.mp h
    cases gs with
    | nil => simp [readGroups?, readGroup?_toDigits hg]
    | cons g' gs =>
      have hrest := ih hgs
      rw [List.map_cons] at hrest
      simp [readGroups?, readGroup?_toDigits hg, hrest]

theorem readSide?_written (pointed : Bool) {gs : List Nat} (h : ∀ g ∈ gs, g < 2 ^ 16) :
    readSide? pointed (written gs) = some (gs.flatMap pair) := by
  cases gs with
  | nil => rfl
  | cons g gs =>
    have hcolon : ∀ part ∈ (g :: gs).map (Nat.toDigits 16), ':' ∉ part := by
      intro part hpart
      obtain ⟨g, -, rfl⟩ := List.mem_map.mp hpart
      exact separator_notMem (by simp) g
    obtain ⟨c, s, hc, -⟩ := written_head g gs []
    rw [List.append_nil] at hc
    have hne : written (g :: gs) ≠ [] := by rw [hc]; exact List.cons_ne_nil _ _
    rw [readSide?, if_neg hne, written, List.splitOn_intercalate ':' hcolon (by simp), readGroups?_toDigits pointed h]

private theorem cutColons_plain {s : List Char} (h : ':' ∉ s) (rest : List Char) :
    cutColons (s ++ rest) = (cutColons rest).map fun (front, back) => (s ++ front, back) := by
  induction s with
  | nil => simp
  | cons c s ih =>
    obtain ⟨hc, hs⟩ : ':' ≠ c ∧ ':' ∉ s := by simpa using h
    rw [List.cons_append, cutColons, ih hs, Option.map_map]
    · rfl
    · rintro rest ⟨⟩
      exact absurd rfl hc

/-- In groups no two colons stand in a row. -/
private theorem cutColons_written (gs : List Nat) (rest : List Char) :
    cutColons (written gs ++ rest) = (cutColons rest).map fun (front, back) => (written gs ++ front, back) := by
  induction gs with
  | nil => simp [written]
  | cons g gs ih =>
    have hdigits := separator_notMem (c := ':') (by simp) g
    cases gs with
    | nil =>
      have hsingle : written [g] = Nat.toDigits 16 g := by simp [written]
      rw [hsingle]
      exact cutColons_plain hdigits rest
    | cons g' gs =>
      obtain ⟨c, s, hc, hcolon⟩ := written_head g' gs rest
      have hstep : cutColons (':' :: (written (g' :: gs) ++ rest)) =
          (cutColons (written (g' :: gs) ++ rest)).map fun (front, back) => (':' :: front, back) := by
        rw [hc, cutColons]
        rintro rest - ⟨⟩
        exact absurd rfl hcolon
      rw [written_cons, List.append_assoc, cutColons_plain hdigits, List.cons_append, hstep, ih, Option.map_map,
        Option.map_map]
      simp [Function.comp_def]

end Groups

section Runs

/-- A run of zeros in a list, by its start and its length. -/
private def ZeroRun (all : List Nat) (run : Nat × Nat) : Prop :=
  run.1 + run.2 ≤ all.length ∧ ∀ j, run.1 ≤ j → j < run.1 + run.2 → all[j]? = some 0

private theorem ZeroRun.append {front : List Nat} {run : Nat × Nat} (h : ZeroRun front run) (rest : List Nat) :
    ZeroRun (front ++ rest) run := by
  refine ⟨by rw [List.length_append]; exact h.1.trans (Nat.le_add_right _ _), fun j hlow hhigh => ?_⟩
  rw [List.getElem?_append_left (by have := h.1; omega)]
  exact h.2 j hlow hhigh

private theorem ZeroRun.split {all : List Nat} {run : Nat × Nat} (h : ZeroRun all run) :
    all = all.take run.1 ++ (List.replicate run.2 0 ++ all.drop (run.1 + run.2)) := by
  have hzeros : (all.drop run.1).take run.2 = List.replicate run.2 0 := by
    refine List.eq_replicate_iff.mpr ⟨by rw [List.length_take, List.length_drop]; have := h.1; omega, ?_⟩
    intro n hn
    obtain ⟨j, hj, rfl⟩ := List.mem_iff_getElem.mp hn
    rw [List.length_take] at hj
    have hzero := h.2 (run.1 + j) (Nat.le_add_right _ _) (by omega)
    rw [List.getElem_take, List.getElem_drop]
    exact (List.getElem?_eq_some_iff.mp hzero).2
  rw [← hzeros, ← List.drop_drop, List.take_append_drop, List.take_append_drop]

/-- The run that ends here and the longest one are runs of zeros all the way. -/
private theorem longestZeros_run {front : List Nat} {run best : Nat × Nat} (rest : List Nat)
    (hrun : run.2 = 0 ∨ run.1 + run.2 = front.length ∧ ZeroRun front run) (hbest : ZeroRun front best) :
    ZeroRun (front ++ rest) (longestZeros front.length run best rest) := by
  -- `front` was passed over; the run that ends there grows with a zero and starts anew behind anything else
  induction rest generalizing front run best with
  | nil =>
    rw [List.append_nil]
    exact hbest
  | cons g rest ih =>
    have hstep : front ++ g :: rest = front ++ [g] ++ rest := by simp
    have hlength : front.length + 1 = (front ++ [g]).length := by simp
    obtain ⟨start, length⟩ := run
    rw [longestZeros, hstep, hlength]
    by_cases hg : g = 0
    · subst hg
      let next := if length = 0 then front.length else start
      have hend : next + length = front.length := by
        unfold next
        split_ifs with hempty
        · omega
        · exact (hrun.resolve_left hempty).1
      have hnext : ZeroRun (front ++ [0]) (next, length + 1) := by
        refine ⟨by rw [List.length_append, List.length_singleton]; omega, fun j hlow hhigh => ?_⟩
        dsimp only at hlow hhigh
        obtain rfl | hbefore : j = front.length ∨ j < front.length := by omega
        · simp
        · have hempty : length ≠ 0 := by omega
          have hsame : next = start := if_neg hempty
          rw [List.getElem?_append_left hbefore]
          exact (hrun.resolve_left hempty).2.2 j (by rwa [← hsame]) (by dsimp only; omega)
      have hlongest : ZeroRun (front ++ [0]) (if best.2 < length + 1 then (next, length + 1) else best) := by
        by_cases hlonger : best.2 < length + 1
        · rw [if_pos hlonger]
          exact hnext
        · rw [if_neg hlonger]
          exact hbest.append _
      rw [if_pos rfl]
      exact ih (.inr ⟨by rw [← hlength]; dsimp only; omega, hnext⟩) hlongest
    · rw [if_neg hg]
      exact ih (.inl rfl) (hbest.append _)

end Runs

section Sixfold

theorem groups_pairs (octets : List UInt8) (h : 2 ∣ octets.length) :
    (groups octets).flatMap pair = octets ∧ 2 * (groups octets).length = octets.length ∧
      ∀ g ∈ groups octets, g < 2 ^ 16 := by
  induction octets using groups.induct with
  | case1 a b rest ih =>
    have heven : 2 ∣ rest.length := by rw [List.length_cons, List.length_cons] at h; omega
    obtain ⟨hflat, hlength, hlt⟩ := ih heven
    have ha := a.toNat_lt
    have hb := b.toNat_lt
    have hhigh : (a.toNat * 256 + b.toNat) / 256 = a.toNat := by omega
    have hlow : (a.toNat * 256 + b.toNat) % 256 = b.toNat := by omega
    refine ⟨?_, ?_, List.forall_mem_cons.mpr ⟨by omega, hlt⟩⟩
    · rw [groups, List.flatMap_cons, hflat, pair, hhigh, hlow]
      simp
    · rw [groups, List.length_cons, List.length_cons, List.length_cons]
      omega
  | case2 octets hshort =>
    match octets with
    | [] => exact ⟨rfl, rfl, List.forall_mem_nil _⟩
    | [_] => simp at h
    | a :: b :: rest => exact absurd rfl (hshort a b rest)

private theorem flatMap_pair_length (gs : List Nat) : (gs.flatMap pair).length = 2 * gs.length := by
  induction gs with
  | nil => rfl
  | cons g gs ih =>
    rw [List.flatMap_cons, List.length_append, ih, List.length_cons, pair, List.length_cons, List.length_singleton]
    omega

private theorem flatMap_pair_zeros (count : Nat) :
    (List.replicate count 0).flatMap pair = List.replicate (2 * count) 0 := by
  induction count with
  | zero => rfl
  | succ count ih =>
    rw [List.replicate_succ, List.flatMap_cons, ih, Nat.mul_succ, Nat.add_comm, List.replicate_add]
    rfl

private theorem readV6?_full {gs : List Nat} (hgs : ∀ g ∈ gs, g < 2 ^ 16) (hlength : gs.length = 8) :
    readV6? (written gs) = some (gs.flatMap pair) := by
  have hcut : cutColons (written gs) = none := by
    have hwhole := cutColons_written gs []
    rwa [List.append_nil] at hwhole
  have hoctets : (gs.flatMap pair).length = 16 := by rw [flatMap_pair_length, hlength]
  rw [readV6?, hcut]
  simp only [readSide?_written true hgs, Option.bind_eq_bind, Option.bind_some, if_pos hoctets]

/-- Groups with two colons in place of a run of zeros. -/
private theorem readV6?_short {gs : List Nat} {run : Nat × Nat} (hgs : ∀ g ∈ gs, g < 2 ^ 16) (hlength : gs.length = 8)
    (hrun : ZeroRun gs run) (hlong : 1 < run.2) :
    readV6? (written (gs.take run.1) ++ (':' :: ':' :: written (gs.drop (run.1 + run.2)))) =
      some (gs.flatMap pair) := by
  have hcut : cutColons (written (gs.take run.1) ++ (':' :: ':' :: written (gs.drop (run.1 + run.2)))) =
      some (written (gs.take run.1), written (gs.drop (run.1 + run.2))) := by
    rw [cutColons_written, cutColons]
    simp
  have hbefore : readSide? false (written (gs.take run.1)) = some ((gs.take run.1).flatMap pair) :=
    readSide?_written false fun g hg => hgs g (List.mem_of_mem_take hg)
  have hbehind : readSide? true (written (gs.drop (run.1 + run.2))) =
      some ((gs.drop (run.1 + run.2)).flatMap pair) :=
    readSide?_written true fun g hg => hgs g (List.mem_of_mem_drop hg)
  have hlow : ((gs.take run.1).flatMap pair).length = 2 * run.1 := by
    rw [flatMap_pair_length, List.length_take]
    have := hrun.1
    omega
  have hhigh : ((gs.drop (run.1 + run.2)).flatMap pair).length = 16 - 2 * run.1 - 2 * run.2 := by
    rw [flatMap_pair_length, List.length_drop]
    omega
  have hfit := hrun.1
  have hroom : 2 * run.1 + (16 - 2 * run.1 - 2 * run.2) ≤ 14 := by omega
  have hmissing : 16 - 2 * run.1 - (16 - 2 * run.1 - 2 * run.2) = 2 * run.2 := by omega
  rw [readV6?, hcut]
  simp only [hbefore, hbehind, Option.bind_eq_bind, Option.bind_some, hlow, hhigh, if_pos hroom, hmissing]
  conv_rhs => rw [hrun.split, List.flatMap_append, List.flatMap_append, flatMap_pair_zeros]
  rw [List.append_assoc]

/-- An address of the older kind within one of the newer. -/
private theorem readV6?_pointed {octets : List UInt8} (h : octets.length = 4) :
    readV6? ("::ffff:".toList ++ (v4Text octets).toList) = some (List.replicate 10 0 ++ [255, 255] ++ octets) := by
  let address := (v4Text octets).toList
  have hcut : cutColons ("::ffff:".toList ++ address) = some ([], "ffff".toList ++ ':' :: address) := rfl
  have hcolon : ∀ part ∈ ["ffff".toList, address], ':' ∉ part := by
    rw [List.forall_mem_cons, List.forall_mem_singleton]
    exact ⟨by decide, fun hmem => absurd (mem_v4Text hmem) (by decide)⟩
  have hsplit : ("ffff".toList ++ ':' :: address).splitOn ':' = ["ffff".toList, address] := by
    have hparts : "ffff".toList ++ ':' :: address = [':'].intercalate ["ffff".toList, address] := by simp
    rw [hparts, List.splitOn_intercalate ':' hcolon (List.cons_ne_nil _ _)]
  have hfront : readGroup? "ffff".toList = some [255, 255] := by decide +kernel
  have hlong : readGroup? address = none := by
    rw [readGroup?, if_neg]
    rintro ⟨-, hlength⟩
    have hseven : 7 ≤ address.length := v4Text_length h
    omega
  have hside : readSide? true ("ffff".toList ++ ':' :: address) = some ([255, 255] ++ octets) := by
    rw [readSide?, if_neg (by simp), hsplit, readGroups?, hfront, readGroups?, hlong, readV4?_v4Text h]
    · rfl
    · simp
  rw [readV6?, hcut]
  have hempty : readSide? false [] = some [] := rfl
  simp only [hempty, hside, Option.bind_eq_bind, Option.bind_some]
  simp [h]

theorem readV6?_v6Text {octets : List UInt8} (h : octets.length = 16) :
    readV6? (v6Text octets).toList = some octets := by
  obtain ⟨hpairs, hcount, hgs⟩ := groups_pairs octets (by omega)
  have hlength : (groups octets).length = 8 := by omega
  have hrun : ZeroRun (groups octets) (longestZeros 0 (0, 0) (0, 0) (groups octets)) := by
    have hnone : ZeroRun [] (0, 0) := ⟨le_rfl, by dsimp only; omega⟩
    exact longestZeros_run (groups octets) (.inl rfl) hnone
  rw [v6Text]
  dsimp only
  split_ifs with hpointed hlong
  · have hfront : octets = List.replicate 10 0 ++ [255, 255] ++ octets.drop 12 := by
      obtain ⟨rest, hrest⟩ : ∃ rest, octets = List.replicate 10 0 ++ [255, 255] ++ rest := by
        refine ⟨((groups octets).drop 6).flatMap pair, ?_⟩
        conv_lhs => rw [← hpairs, ← List.take_append_drop 6 (groups octets), hpointed, List.flatMap_append]
        rfl
      rw [hrest]
      rfl
    rw [String.toList_append, readV6?_pointed (by rw [List.length_drop, h]), ← hfront]
  · have hcolons : "::".toList = [':', ':'] := rfl
    rw [String.toList_append, String.toList_append, groupsText_toList, groupsText_toList, hcolons, List.append_assoc]
    exact (readV6?_short hgs hlength hrun hlong).trans (by rw [hpairs])
  · rw [groupsText_toList, readV6?_full hgs hlength, hpairs]

end Sixfold

section Texts

private theorem mem_groupsText {gs : List Nat} {c : Char} (hc : c ∈ (groupsText gs).toList) :
    c = ':' ∨ ∃ g, c ∈ Nat.toDigits 16 g := by
  rw [groupsText_toList, written] at hc
  refine (mem_separated hc).imp_right fun ⟨part, hpart, hc⟩ => ?_
  obtain ⟨g, -, rfl⟩ := List.mem_map.mp hpart
  exact ⟨g, hc⟩

theorem colon_notMem_v4Text (octets : List UInt8) : ':' ∉ (v4Text octets).toList :=
  fun hmem => absurd (mem_v4Text hmem) (by decide)

theorem slash_notMem_v4Text (octets : List UInt8) : '/' ∉ (v4Text octets).toList :=
  fun hmem => absurd (mem_v4Text hmem) (by decide)

theorem colon_mem_v6Text {octets : List UInt8} (h : octets.length = 16) : ':' ∈ (v6Text octets).toList := by
  obtain ⟨-, hcount, -⟩ := groups_pairs octets (by omega)
  rw [v6Text]
  dsimp only
  split_ifs with hpointed hlong
  · simp
  · simp
  · obtain ⟨g, g', gs, hgs⟩ : ∃ g g' gs, groups octets = g :: g' :: gs := by
      match hgs : groups octets with
      | [] | [_] => rw [hgs] at hcount; simp at hcount; omega
      | g :: g' :: gs => exact ⟨g, g', gs, rfl⟩
    rw [groupsText_toList, hgs, written_cons]
    simp

theorem slash_notMem_v6Text (octets : List UInt8) : '/' ∉ (v6Text octets).toList := by
  have hgroups (gs : List Nat) : '/' ∉ (groupsText gs).toList := by
    intro hmem
    obtain hcolon | ⟨g, hg⟩ := mem_groupsText hmem
    · exact absurd hcolon (by decide)
    · exact separator_notMem (by simp) g hg
  have hv4 := slash_notMem_v4Text (octets.drop 12)
  rw [v6Text]
  dsimp only
  split_ifs <;> simp [hgroups, hv4]

end Texts

/-- An address as it is sent: behind its family, the count of the bits that are meant and a flag, four octets
or sixteen. -/
structure Sent where
  family : UInt8
  bits : UInt8
  flag : UInt8
  octets : List UInt8
  known : family = 2 ∧ octets.length = 4 ∨ family = 3 ∧ octets.length = 16
  deriving DecidableEq

namespace Sent

def bytes (sent : Sent) : List UInt8 :=
  [sent.family, sent.bits, sent.flag, sent.octets.length.toUInt8] ++ sent.octets

/-- The text without the count of bits. -/
def address (sent : Sent) : String := if sent.family = 2 then v4Text sent.octets else v6Text sent.octets

theorem readAddress?_address (sent : Sent) : readAddress? sent.address.toList = some sent.octets := by
  rw [readAddress?, address]
  obtain ⟨hfamily, hlength⟩ | ⟨hfamily, hlength⟩ := sent.known
  · rw [if_pos hfamily, if_neg (colon_notMem_v4Text _), readV4?_v4Text hlength]
  · have hother : sent.family ≠ 2 := by rw [hfamily]; decide
    rw [if_neg hother, if_pos (colon_mem_v6Text hlength), readV6?_v6Text hlength]

theorem slash_notMem_address (sent : Sent) : '/' ∉ sent.address.toList := by
  rw [address]
  split_ifs
  · exact slash_notMem_v4Text _
  · exact slash_notMem_v6Text _

/-- The count of bits follows where it is always asked for, or where not all are meant. -/
def text (sent : Sent) (alwaysBits : Bool) : String :=
  if alwaysBits || sent.bits.toNat ≠ 8 * sent.octets.length then sent.address ++ s!"/{sent.bits.toNat}"
  else sent.address

/-- A text of an address names the network that was sent, if no more bits are meant than the address has, and
otherwise nothing. -/
theorem read?_text (sent : Sent) (alwaysBits : Bool) : Network.read? (sent.text alwaysBits).toList =
    if sent.bits.toNat ≤ 8 * sent.octets.length then some ⟨sent.octets, sent.bits.toNat⟩ else none := by
  have hslash := sent.slash_notMem_address
  rw [text]
  by_cases hshown : alwaysBits || sent.bits.toNat ≠ 8 * sent.octets.length
  · have hbits : '/' ∉ Nat.toDigits 10 sent.bits.toNat :=
      fun hmem => absurd (Nat.isDigit_of_mem_toDigits (by decide) (by decide) hmem) (by decide)
    have htext : (sent.address ++ s!"/{sent.bits.toNat}").toList =
        ['/'].intercalate [sent.address.toList, Nat.toDigits 10 sent.bits.toNat] := by
      rw [String.toList_append, String.toList_append, List.intercalate_cons_cons, List.intercalate_singleton,
        ← Nat.toList_repr, List.append_assoc]
      rfl
    have hparts : ∀ part ∈ [sent.address.toList, Nat.toDigits 10 sent.bits.toNat], '/' ∉ part := by
      simp [hslash, hbits]
    rw [if_pos hshown, Network.read?, htext, List.splitOn_intercalate '/' hparts (List.cons_ne_nil _ _)]
    simp only [sent.readAddress?_address, readOctet?_toDigits, Option.bind_eq_bind, Option.bind_some]
  · have hall : sent.bits.toNat = 8 * sent.octets.length := by
      by_contra hpart
      exact hshown (by simp [hpart])
    rw [if_neg hshown, Network.read?, List.splitOn_eq_singleton hslash, hall, if_pos le_rfl]
    simp only [sent.readAddress?_address, Option.map_some]

example : Network.read? "::ffff:10.0.0.1/104".toList =
    some ⟨[0, 0, 0, 0, 0, 0, 0, 0, 0, 0, 255, 255, 10, 0, 0, 1], 104⟩ := by decide +kernel
example : Network.read? "2001:db8::1".toList =
    some ⟨[32, 1, 13, 184, 0, 0, 0, 0, 0, 0, 0, 0, 0, 0, 0, 1], 128⟩ := by decide +kernel

end Sent

theorem readByte_takes : Takes (readUnsigned 1) fun n bytes => ∃ b : UInt8, b.toNat = n ∧ [b] = bytes := by
  have hsingle (b : UInt8) : unsigned [b] = b.toNat := Nat.zero_add _
  intro raw n rest
  rw [readUnsigned_takes]
  constructor
  · rintro ⟨bytes, ⟨hlength, hn⟩, hraw⟩
    obtain ⟨b, rfl⟩ := List.length_eq_one_iff.mp hlength
    exact ⟨[b], ⟨b, by rw [← hsingle, hn], rfl⟩, hraw⟩
  · rintro ⟨_, ⟨b, hn, rfl⟩, hraw⟩
    exact ⟨[b], ⟨rfl, by rw [hsingle, hn]⟩, hraw⟩

/-- Behind its header an address is read if it has as many octets as the header says and its family says. -/
private theorem networkText_header (family bits flag length : UInt8) (octets : List UInt8) (alwaysBits : Bool) :
    networkText ([family] ++ ([bits] ++ ([flag] ++ ([length] ++ octets)))) alwaysBits =
      if octets.length ≠ length.toNat then .error .addressLength
      else if h : family = 2 ∧ octets.length = 4 ∨ family = 3 ∧ octets.length = 16 then
        .ok (Sent.text ⟨family, bits, flag, octets, h⟩ alwaysBits)
      else .error (.addressFamily family.toNat) := by
  have hreads (b : UInt8) (behind : List UInt8) := readByte_takes.reads ⟨b, rfl, rfl⟩ behind
  simp only [networkText, hreads, ok_bind]
  by_cases hlength : octets.length ≠ length.toNat
  · rw [if_pos hlength, if_pos hlength]
    rfl
  rw [if_neg hlength, if_neg hlength, ← not_not.mp hlength]
  split_ifs with hknown
  · obtain ⟨rfl, hfour⟩ | ⟨rfl, hsixteen⟩ := hknown
    · simp only [hfour, Sent.text, Sent.address]
      rfl
    · simp only [hsixteen, Sent.text, Sent.address]
      rfl
  · split
    · next hfamily hfour => exact absurd (.inl ⟨UInt8.toNat_inj.mp hfamily, hfour⟩) hknown
    · next hfamily hsixteen => exact absurd (.inr ⟨UInt8.toNat_inj.mp hfamily, hsixteen⟩) hknown
    · rfl

/-- The text of a network address is that of an address of either family, with the count of bits as it was sent. -/
theorem networkText_eq_ok {raw : List UInt8} {alwaysBits : Bool} {t : String} :
    networkText raw alwaysBits = .ok t ↔ ∃ sent : Sent, sent.bytes = raw ∧ sent.text alwaysBits = t := by
  constructor
  · intro h
    obtain ⟨family, bits, flag, length, octets, rfl⟩ : ∃ family bits flag length octets,
        raw = [family] ++ ([bits] ++ ([flag] ++ ([length] ++ octets))) := by
      rw [networkText] at h
      obtain ⟨_, _, _, ⟨family, rfl, rfl⟩, rfl, hbits⟩ := readByte_takes.bind_eq_ok.mp h
      obtain ⟨_, _, _, ⟨bits, rfl, rfl⟩, rfl, hflag⟩ := readByte_takes.bind_eq_ok.mp hbits
      obtain ⟨_, _, _, ⟨flag, rfl, rfl⟩, rfl, hlength⟩ := readByte_takes.bind_eq_ok.mp hflag
      obtain ⟨_, _, octets, ⟨length, rfl, rfl⟩, rfl, -⟩ := readByte_takes.bind_eq_ok.mp hlength
      exact ⟨family, bits, flag, length, octets, rfl⟩
    rw [networkText_header] at h
    split_ifs at h with hlength hknown
    cases h
    refine ⟨⟨family, bits, flag, octets, hknown⟩, ?_, rfl⟩
    have hbyte : octets.length.toUInt8 = length := by
      rw [not_not.mp hlength]
      exact UInt8.ofNat_toNat
    rw [Sent.bytes, hbyte]
    rfl
  · rintro ⟨sent, rfl, rfl⟩
    have hlength : sent.octets.length = sent.octets.length.toUInt8.toNat := by
      obtain ⟨-, hlength⟩ | ⟨-, hlength⟩ := sent.known <;> rw [hlength] <;> rfl
    have hbytes : sent.bytes = [sent.family] ++ ([sent.bits] ++ ([sent.flag] ++
        ([sent.octets.length.toUInt8] ++ sent.octets))) := rfl
    rw [hbytes, networkText_header, if_neg (not_not.mpr hlength), dif_pos sent.known]

end TypedSql.Protocol.Address

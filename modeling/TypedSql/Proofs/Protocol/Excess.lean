import TypedSql.Proofs.Protocol.Binary
import TypedSql.Proofs.Protocol.Taking
import Mathlib.Data.Nat.Find

/-! Bytes behind the end of a value: which types refuse them and which pass over them. -/
namespace TypedSql.Protocol

/-- What becomes of bytes behind the end of a value. -/
inductive Excess where
  /-- Nothing looks at them. -/
  | ignored
  /-- They are an error. -/
  | refused
  /-- They belong to the value, which fills all bytes that there are. -/
  | content
  deriving DecidableEq, Repr

def Form.excess : Form → Excess
  | .numeric | .interval => .ignored
  | .bytea | .text | .json | .jsonb => .content
  | .bool | .int2 | .int4 | .int8 | .oid | .float4 | .float8 | .uuid | .date | .time | .timestamp
  | .timestamptz | .inet | .cidr | .macaddr => .refused

/-- A domain does what its base does; pseudo types have no values. -/
def ServerType.excess : ServerType → Excess
  | ⟨_, _, kind⟩ =>
    match kind with
    | .array _ | .composite _ | .range _ => .ignored
    | .domain base => base.excess
    | .enum _ => .content
    | .simple form => form.excess
    | .pseudo => .refused

variable {α β : Type}

/-- What a decoder gives for some bytes it gives also with bytes behind them. -/
def Stops (decode : List UInt8 → Except CodecProblem α) : Prop :=
  ∀ raw a, decode raw = .ok a → ∀ behind, decode (raw ++ behind) = .ok a

/-- A decoder takes no bytes with others behind them that it takes alone. -/
def Refuses (decode : List UInt8 → Except CodecProblem α) : Prop :=
  ∀ raw a, decode raw = .ok a → ∀ behind, behind ≠ [] → ∃ problem, decode (raw ++ behind) = .error problem

section Decoders

variable {decode : List UInt8 → Except CodecProblem α} {read : Reader α} {standsFor : α → List UInt8 → Prop}
  {next : α × List UInt8 → Except CodecProblem β}

/-- A decoder that stops has an end: nothing shorter is taken, and nothing behind it matters. -/
theorem Stops.shortest (h : Stops decode) {raw : List UInt8} {a : α} (hraw : decode raw = .ok a) :
    ∃ used rest, raw = used ++ rest ∧
      (∀ shorter, shorter <+: used → shorter ≠ used → ∀ b, decode shorter ≠ .ok b) ∧
      ∀ behind, decode (used ++ behind) = .ok a := by
  classical
  -- the end is behind the shortest beginning that is taken; as the decoder stops, that gives the same value
  have htaken : ∃ count, ∃ b, decode (raw.take count) = .ok b :=
    ⟨raw.length, a, by rwa [List.take_length]⟩
  obtain ⟨b, hb⟩ := Nat.find_spec htaken
  have hwhole := h _ _ hb (raw.drop (Nat.find htaken))
  rw [List.take_append_drop, hraw] at hwhole
  cases hwhole
  refine ⟨raw.take (Nat.find htaken), raw.drop (Nat.find htaken), (List.take_append_drop _ _).symm,
    fun shorter hshorter hne b' hb' => ?_, h _ _ hb⟩
  have hlength : shorter.length < (raw.take (Nat.find htaken)).length :=
    lt_of_le_of_ne hshorter.length_le fun heq => hne (hshorter.eq_of_length heq)
  have hcount : shorter.length < Nat.find htaken := by
    rw [List.length_take] at hlength
    omega
  have htake : shorter = raw.take shorter.length :=
    List.prefix_iff_eq_take.mp (hshorter.trans (List.take_prefix _ _))
  exact Nat.find_min htaken hcount ⟨b', htake ▸ hb'⟩

/-- What looks at no bytes stops. -/
theorem Stops.const (outcome : Except CodecProblem α) : Stops fun _ => outcome :=
  fun _ _ h _ => h

/-- What is found without the bytes decides first. -/
theorem Stops.after {outcome : Except CodecProblem α} {next : α → List UInt8 → Except CodecProblem β}
    (h : ∀ a, Stops (next a)) : Stops fun raw => outcome >>= fun a => next a raw := by
  intro raw b hb behind
  obtain ⟨a, ha, hb⟩ := bind_eq_ok.mp hb
  exact bind_eq_ok.mpr ⟨a, ha, h a raw b hb behind⟩

theorem Stops.bind (h : Stops decode) (f : α → Except CodecProblem β) : Stops fun raw => decode raw >>= f := by
  intro raw b hb behind
  obtain ⟨a, ha, hb⟩ := bind_eq_ok.mp hb
  exact bind_eq_ok.mpr ⟨a, h raw a ha behind, hb⟩

theorem Stops.map (h : Stops decode) (f : α → β) : Stops fun raw => f <$> decode raw := by
  simpa only [← bind_ok] using h.bind fun a => .ok (f a)

/-- A reader has an end of its own, so what follows it decides. -/
theorem Takes.stops (h : Takes read standsFor) (hnext : ∀ a, Stops fun rest => next (a, rest)) :
    Stops fun raw => read raw >>= next := by
  intro raw b hb behind
  obtain ⟨a, bytes, rest, ha, rfl, hafter⟩ := h.bind_eq_ok.mp hb
  exact h.bind_eq_ok.mpr ⟨a, bytes, rest ++ behind, ha, List.append_assoc .., hnext a rest b hafter behind⟩

/-- A decoder that takes bytes of one length only. -/
theorem refuses_of_length (size : Nat) (h : ∀ raw a, decode raw = .ok a → raw.length = size) : Refuses decode := by
  intro raw a ha behind hbehind
  cases hb : decode (raw ++ behind) with
  | error problem => exact ⟨problem, rfl⟩
  | ok b =>
    have hlength := h _ b hb
    rw [List.length_append, h raw a ha] at hlength
    exact absurd (List.length_eq_zero_iff.mp (by omega)) hbehind

theorem Refuses.bind (h : Refuses decode) (f : α → Except CodecProblem β) :
    Refuses fun raw => decode raw >>= f := by
  intro raw b hb behind hbehind
  obtain ⟨a, ha, -⟩ := bind_eq_ok.mp hb
  obtain ⟨problem, hproblem⟩ := h raw a ha behind hbehind
  exact ⟨problem, by simp only [hproblem, error_bind]⟩

theorem Refuses.map (h : Refuses decode) (f : α → β) : Refuses fun raw => f <$> decode raw := by
  simpa only [← bind_ok] using h.bind fun a => .ok (f a)

theorem Takes.refuses (h : Takes read standsFor) (hnext : ∀ a, Refuses fun rest => next (a, rest)) :
    Refuses fun raw => read raw >>= next := by
  intro raw b hb behind hbehind
  obtain ⟨a, bytes, rest, ha, rfl, hafter⟩ := h.bind_eq_ok.mp hb
  obtain ⟨problem, hproblem⟩ := hnext a rest b hafter behind hbehind
  exact ⟨problem, by simp only [List.append_assoc, h.reads ha _, ok_bind, hproblem]⟩

end Decoders

section Leaves

theorem whole_refuses (width : Nat) (excess : CodecProblem) : Refuses (whole width excess) := by
  refine refuses_of_length width fun raw bytes h => ?_
  rw [whole] at h
  split_ifs at h
  omega

theorem networkText_refuses (alwaysBits : Bool) : Refuses fun raw => Address.networkText raw alwaysBits := by
  refine (readUnsigned_takes 1).refuses fun family => (readUnsigned_takes 1).refuses fun bits =>
    (readUnsigned_takes 1).refuses fun _ => (readUnsigned_takes 1).refuses fun length => ?_
  refine refuses_of_length length fun octets text h => ?_
  dsimp only at h
  split_ifs at h with hlength
  · cases h
  · omega

theorem hardwareText_refuses : Refuses Address.hardwareText := by
  refine refuses_of_length 6 fun raw text h => ?_
  rw [Address.hardwareText] at h
  split_ifs at h with hlength
  exact hlength

theorem Form.decode_refuses {form : Form} (h : form.excess = .refused) : Refuses form.decode := by
  cases form with
  | numeric | interval | bytea | text | json | jsonb => cases h
  | bool =>
    refine refuses_of_length 1 fun raw s hs => ?_
    match raw with
    | [_] => rfl
  | uuid =>
    refine refuses_of_length 16 fun raw s hs => ?_
    rw [decode] at hs
    split_ifs at hs with hlength
    exact hlength
  | timestamp | timestamptz => exact ((whole_refuses _ _).bind _).map _
  | inet | cidr => exact (networkText_refuses _).map _
  | macaddr => exact hardwareText_refuses.map _
  | _ => exact (whole_refuses _ _).bind _

theorem numericText_stops : Stops Numeric.text := by
  refine (readSigned_takes 2).stops fun count => (readSigned_takes 2).stops fun weight =>
    (readUnsigned_takes 2).stops fun sign => (readUnsigned_takes 2).stops fun scale => ?_
  dsimp only
  split_ifs
  iterate 4 exact .const _
  exact (readMany_takes (readSigned_takes 2) _).stops fun groups =>
    .const (pure (Numeric.Parts.text ⟨weight, _, _, groups⟩))

theorem intervalText_stops : Stops Interval.text := by
  intro raw text h behind
  rw [Interval.text] at h ⊢
  split_ifs at h with hlength
  rw [if_neg (by rw [List.length_append]; omega)]
  refine (readSigned_takes 8).stops (fun micros => ?_) raw text h behind
  dsimp only
  refine (readSigned_takes 4).stops fun days => ?_
  dsimp only
  exact (readSigned_takes 4).stops fun months => .const (pure (Interval.partsText months days micros))

theorem Form.decode_stops {form : Form} (h : form.excess = .ignored) : Stops form.decode := by
  cases form with
  | numeric => exact numericText_stops.map _
  | interval => exact intervalText_stops.map _
  | _ => cases h

end Leaves

section Containers

variable (decode : List UInt8 → Except CodecProblem Wire)

theorem decodeArray_stops (element : String) : Stops (decodeArray element decode) :=
  readWord_takes.stops fun _ => readWord_takes.stops fun _ => readWord_takes.stops fun _ =>
    (readExtents_takes _).stops fun _ => .after fun _ =>
      (readMany_takes (readWire_takes decode) _).stops fun _ => .const _

theorem readBound_takes (unbounded included : Bool) :
    Takes (readBound decode unbounded included) (Reads (readBound decode unbounded included)) := by
  intro raw b rest
  constructor
  · intro h
    cases unbounded with
    | true =>
      cases h
      exact ⟨[], fun _ => rfl, rfl⟩
    | false =>
      obtain ⟨w, bytes, _, hw, rfl, hb⟩ := (readWire_takes decode).bind_eq_ok.mp h
      cases hb
      exact ⟨bytes, fun _ => (readWire_takes decode).bind_eq_ok.mpr ⟨w, bytes, _, hw, rfl, rfl⟩, rfl⟩
  · rintro ⟨bytes, hreads, rfl⟩
    exact hreads rest

theorem decodeRange_stops : Stops (decodeRange decode) := by
  refine (readUnsigned_takes 1).stops fun bits => ?_
  dsimp only
  split_ifs
  · exact .const _
  · refine (readBound_takes decode _ _).stops fun lower => ?_
    dsimp only
    exact (readBound_takes decode _ _).stops fun upper => .const (pure (Wire.range (.between lower upper)))

theorem decodeFields_stops (fields : List (String × ServerType)) : Stops (decodeFields fields) := by
  induction fields with
  | nil => exact .const _
  | cons field others ih =>
    obtain ⟨name, type⟩ := field
    intro raw ws h behind
    rw [decodeFields] at h ⊢
    refine (readSigned_takes 4).stops (fun _ => ?_) raw ws h behind
    exact (readWire_takes type.decode).stops fun w => ih.bind fun ws => pure (w :: ws)

end Containers

theorem ServerType.decode_stops {t : ServerType} (h : t.excess = .ignored) : Stops t.decode := by
  -- containers stop whatever their parts do, as parts have counts; only a domain needs the induction
  induction t using ServerType.induction with
  | step t ih =>
    obtain ⟨name, oid, kind⟩ := t
    intro raw w hw behind
    cases kind with
    | array element =>
      rw [decode] at hw ⊢
      exact decodeArray_stops _ _ raw w hw behind
    | composite fields =>
      rw [decode] at hw ⊢
      refine (readSigned_takes 4).stops (fun count => ?_) raw w hw behind
      dsimp only
      split_ifs
      · exact .const _
      · exact (decodeFields_stops fields).bind fun ws => pure (Wire.record ws)
    | range subtype =>
      rw [decode] at hw ⊢
      exact decodeRange_stops _ raw w hw behind
    | domain base =>
      rw [decode] at hw ⊢
      exact ih base (List.mem_singleton.mpr rfl) h raw w hw behind
    | simple form =>
      rw [decode] at hw ⊢
      exact (Form.decode_stops h).map _ raw w hw behind
    | enum | pseudo => cases h

theorem ServerType.decode_refuses {t : ServerType} (h : t.excess = .refused) : Refuses t.decode := by
  induction t using ServerType.induction with
  | step t ih =>
    obtain ⟨name, oid, kind⟩ := t
    intro raw w hw behind hbehind
    cases kind with
    | domain base =>
      rw [decode] at hw ⊢
      exact ih base (List.mem_singleton.mpr rfl) h raw w hw behind hbehind
    | simple form =>
      rw [decode] at hw ⊢
      exact (Form.decode_refuses h).map _ raw w hw behind hbehind
    | pseudo =>
      rw [decode] at hw
      cases hw
    | array | composite | range | enum => cases h

/-- Arrays, records, ranges, numbers of any size and spans of time end where nothing shorter is taken, and are
the same whatever is behind their end. Addresses and values of a fixed width with anything behind them are
errors. -/
theorem ServerType.decode_excess (t : ServerType) {raw : List UInt8} {w : Wire} (h : t.decode raw = .ok w) :
    (t.excess = .ignored → ∃ used rest, raw = used ++ rest ∧
      (∀ shorter, shorter <+: used → shorter ≠ used → ∀ w', t.decode shorter ≠ .ok w') ∧
      ∀ behind, t.decode (used ++ behind) = .ok w) ∧
    (t.excess = .refused → ∀ behind, behind ≠ [] → ∃ problem, t.decode (raw ++ behind) = .error problem) :=
  ⟨fun hignored => (decode_stops hignored).shortest h, fun hrefused => decode_refuses hrefused raw w h⟩

/-- An array with an empty range, and an address. -/
theorem ServerType.decode_excess_ranges :
    let range : ServerType := ⟨"int4range", 3904, .range ⟨"int4", 23, .simple .int4⟩⟩
    let ranges : ServerType := ⟨"_int4range", 3905, .array range⟩
    let inet : ServerType := ⟨"inet", 869, .simple .inet⟩
    let header : ArrayHeader :=
      ⟨.of 0 0 0 1, .of 0 0 0 0, .of 0 0 15 64, [(.of 0 0 0 1, .of 0 0 0 1)], by decide⟩
    let raw := header.bytes ++ [0, 0, 0, 1, 1]
    ranges.decode raw = .ok (.array "int4range" [.range .empty]) ∧
      (∃ used rest, raw = used ++ rest ∧
        (∀ shorter, shorter <+: used → shorter ≠ used → ∀ w, ranges.decode shorter ≠ .ok w) ∧
        ∀ behind, ranges.decode (used ++ behind) = .ok (.array "int4range" [.range .empty])) ∧
      ∀ behind, behind ≠ [] → ∃ problem, inet.decode ([2, 32, 0, 4, 127, 0, 0, 1] ++ behind) = .error problem := by
  intro range ranges inet header raw
  have hlevels : header.levels = [1] := by decide
  have hstart : StartWith range.decode [.range .empty] [0, 0, 0, 1, 1] :=
    ⟨[some [1]], [[0, 0, 0, 1, 1]], [], rfl, .cons rfl .nil, .cons (.some (.of 0 0 0 1) [1] (by decide)) .nil⟩
  have hranges : ranges.decode raw = .ok (.array "int4range" [.range .empty]) := by
    rw [ServerType.decode]
    exact decodeArray_eq_ok.mpr ⟨_, by rw [hlevels]; rfl, hstart, by rw [hlevels]; rfl⟩
  have hinet : inet.decode [2, 32, 0, 4, 127, 0, 0, 1] = .ok (.scalar (.text "127.0.0.1")) := rfl
  exact ⟨hranges, (ranges.decode_excess hranges).1 rfl, (inet.decode_excess hinet).2 rfl⟩

/-- A byte behind the end is passed over in an array, a record, a range, a number, a span of time, and in a
range within an array. -/
theorem excess_taken :
    let int4 : ServerType := ⟨"int4", 23, .simple .int4⟩
    let range : ServerType := ⟨"int4range", 3904, .range int4⟩
    let header : ArrayHeader :=
      ⟨.of 0 0 0 1, .of 0 0 0 0, .of 0 0 15 64, [(.of 0 0 0 1, .of 0 0 0 1)], by decide⟩
    ServerType.decode ⟨"_int4range", 3905, .array range⟩ (header.bytes ++ [0, 0, 0, 1, 1] ++ [7]) =
        .ok (.array "int4range" [.range .empty]) ∧
      ServerType.decode ⟨"_int4range", 3905, .array range⟩ (header.bytes ++ [0, 0, 0, 2, 1, 7]) =
        .ok (.array "int4range" [.range .empty]) ∧
      ServerType.decode ⟨"point", 16384, .composite [("x", int4)]⟩
        ([0, 0, 0, 1, 0, 0, 0, 23, 255, 255, 255, 255] ++ [7]) = .ok (.record [.null]) ∧
      range.decode ([1] ++ [7]) = .ok (.range .empty) ∧
      ServerType.decode ⟨"numeric", 1700, .simple .numeric⟩ ([0, 0, 0, 0, 0, 0, 0, 0] ++ [7]) =
        .ok (.scalar (.text "0")) ∧
      ServerType.decode ⟨"interval", 1186, .simple .interval⟩ (List.replicate 16 0 ++ [7]) =
        .ok (.scalar (.text "0 mons 0 days 00:00:00")) := by
  intro int4 range header
  have hlevels : header.levels = [1] := by decide
  have hranges {behind : List UInt8} (h : StartWith range.decode [.range .empty] behind) :
      ServerType.decode ⟨"_int4range", 3905, .array range⟩ (header.bytes ++ behind) =
        .ok (.array "int4range" [.range .empty]) := by
    rw [ServerType.decode]
    exact decodeArray_eq_ok.mpr ⟨_, by rw [hlevels]; rfl, h, by rw [hlevels]; rfl⟩
  refine ⟨?_, ?_, ?_, rfl, ?_, rfl⟩
  · rw [List.append_assoc]
    exact hranges ⟨[some [1]], [[0, 0, 0, 1, 1]], [7], rfl, .cons rfl .nil,
      .cons (.some (.of 0 0 0 1) [1] (by decide)) .nil⟩
  · exact hranges ⟨[some [1, 7]], [[0, 0, 0, 2, 1, 7]], [], rfl, .cons rfl .nil,
      .cons (.some (.of 0 0 0 2) [1, 7] (by decide)) .nil⟩
  · have hfields : decodeFields [("x", int4)] [0, 0, 0, 23, 255, 255, 255, 255, 7] = .ok [.null] := by
      rw [decodeFields]
      refine readWord_takes.bind_eq_ok.mpr ⟨23, [0, 0, 0, 23], _, ⟨.of 0 0 0 23, by decide, rfl⟩, rfl, ?_⟩
      refine (readWire_takes _).bind_eq_ok.mpr ⟨.null, [255, 255, 255, 255], [7],
        ⟨none, rfl, .null (.of 255 255 255 255) (by decide)⟩, rfl, rfl⟩
    rw [ServerType.decode]
    exact readWord_takes.bind_eq_ok.mpr ⟨1, [0, 0, 0, 1], _, ⟨.of 0 0 0 1, by decide, rfl⟩, rfl,
      bind_eq_ok.mpr ⟨_, hfields, rfl⟩⟩
  · have hzero : Numeric.text ([0, 0, 0, 0, 0, 0, 0, 0] ++ [7]) = .ok ['0'] :=
      (readSigned_takes 2).bind_eq_ok.mpr ⟨0, [0, 0], _, ⟨rfl, by decide⟩, rfl,
        (readSigned_takes 2).bind_eq_ok.mpr ⟨0, [0, 0], _, ⟨rfl, by decide⟩, rfl,
          (readUnsigned_takes 2).bind_eq_ok.mpr ⟨0, [0, 0], _, ⟨rfl, by decide⟩, rfl,
            (readUnsigned_takes 2).bind_eq_ok.mpr ⟨0, [0, 0], [7], ⟨rfl, by decide⟩, rfl, rfl⟩⟩⟩⟩
    rw [ServerType.decode, Form.decode, hzero]
    rfl

end TypedSql.Protocol

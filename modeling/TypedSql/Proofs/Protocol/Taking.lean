import TypedSql.Protocol.Decode
import TypedSql.Proofs.Protocol.Reading

/-! What readers take from the front of the bytes: the byte strings that stand for a value, and the parts of
an array in the order in which they are read. -/
namespace TypedSql.Protocol

/-- A reader gives a value exactly where bytes that stand for it are in front, and leaves what is behind
them. -/
def Takes {α : Type} (read : Reader α) (standsFor : α → List UInt8 → Prop) : Prop :=
  ∀ raw a rest, read raw = .ok (a, rest) ↔ ∃ bytes, standsFor a bytes ∧ raw = bytes ++ rest

/-- Four bytes. -/
abbrev Word := { bytes : List UInt8 // bytes.length = 4 }

namespace Word

def of (a b c d : UInt8) : Word := ⟨[a, b, c, d], rfl⟩

/-- The number in a word. -/
def value (word : Word) : Int := signed word.1

end Word

/-- The bytes of a value behind their count; a negative count stands for null. -/
inductive Framed : Option (List UInt8) → List UInt8 → Prop
  | null (count : Word) : count.value < 0 → Framed none count.1
  | some (count : Word) (bytes : List UInt8) : count.value = bytes.length →
      Framed (some bytes) (count.1 ++ bytes)

/-- The value in bytes of its type; null has none. -/
def decodeFramed (decode : List UInt8 → Except CodecProblem Wire) :
    Option (List UInt8) → Except CodecProblem Wire
  | some bytes => decode bytes
  | none => .ok .null

section Readers

variable {α β : Type} {read : Reader α} {standsFor : α → List UInt8 → Prop}

/-- A computation that starts with a reader succeeds where the reader does and what follows does. -/
theorem Takes.bind_eq_ok (h : Takes read standsFor) {next : α × List UInt8 → Except CodecProblem β}
    {raw : List UInt8} {b : β} : (read raw >>= next) = .ok b ↔
      ∃ a bytes rest, standsFor a bytes ∧ raw = bytes ++ rest ∧ next (a, rest) = .ok b := by
  rw [TypedSql.bind_eq_ok]
  constructor
  · rintro ⟨⟨a, rest⟩, hread, hnext⟩
    obtain ⟨bytes, hbytes, hraw⟩ := (h raw a rest).mp hread
    exact ⟨a, bytes, rest, hbytes, hraw, hnext⟩
  · rintro ⟨a, bytes, rest, hbytes, hraw, hnext⟩
    exact ⟨(a, rest), (h raw a rest).mpr ⟨bytes, hbytes, hraw⟩, hnext⟩

/-- Bytes that stand for a value are read as it, whatever is behind them. -/
theorem Takes.reads (h : Takes read standsFor) {a : α} {bytes : List UInt8} (ha : standsFor a bytes) :
    Reads read a bytes :=
  fun rest => (h _ a rest).mpr ⟨bytes, ha, rfl⟩

theorem take_takes (count : Nat) :
    Takes (take count) fun a bytes => bytes.length = count ∧ bytes = a := by
  intro raw a rest
  rw [take]
  constructor
  · intro h
    split at h
    · cases h
      exact ⟨raw.take count, ⟨by rw [List.length_take]; omega, rfl⟩, (List.take_append_drop count raw).symm⟩
    · cases h
  · rintro ⟨bytes, ⟨rfl, rfl⟩, rfl⟩
    simp

/-- Bytes of a fixed count, read as something. -/
theorem take_as_takes (count : Nat) (meaning : List UInt8 → α) :
    Takes (fun raw => take count raw >>= fun taken => pure (meaning taken.1, taken.2)) fun a bytes =>
      bytes.length = count ∧ meaning bytes = a := by
  intro raw a rest
  rw [(take_takes count).bind_eq_ok]
  constructor
  · rintro ⟨_, bytes, _, ⟨hlength, rfl⟩, hraw, ha⟩
    cases ha
    exact ⟨bytes, ⟨hlength, rfl⟩, hraw⟩
  · rintro ⟨bytes, ⟨hlength, rfl⟩, hraw⟩
    exact ⟨bytes, bytes, rest, ⟨hlength, rfl⟩, hraw, rfl⟩

theorem readSigned_takes (width : Nat) :
    Takes (readSigned width) fun n bytes => bytes.length = width ∧ signed bytes = n :=
  take_as_takes width signed

theorem readUnsigned_takes (width : Nat) :
    Takes (readUnsigned width) fun n bytes => bytes.length = width ∧ unsigned bytes = n :=
  take_as_takes width unsigned

/-- Bytes of a fixed count as one thing. -/
theorem Takes.boxed {width : Nat} {meaning : List UInt8 → α}
    (h : Takes read fun a bytes => bytes.length = width ∧ meaning bytes = a) :
    Takes read fun a bytes => ∃ box : { bytes : List UInt8 // bytes.length = width }, meaning box.1 = a ∧
      box.1 = bytes := by
  intro raw a rest
  rw [h]
  constructor
  · rintro ⟨bytes, ⟨hlength, ha⟩, hraw⟩
    exact ⟨bytes, ⟨⟨bytes, hlength⟩, ha, rfl⟩, hraw⟩
  · rintro ⟨_, ⟨box, ha, rfl⟩, hraw⟩
    exact ⟨box.1, ⟨box.2, ha⟩, hraw⟩

theorem readWord_takes : Takes (readSigned 4) fun n bytes => ∃ word : Word, word.value = n ∧ word.1 = bytes :=
  (readSigned_takes 4).boxed

theorem readValue_takes : Takes readValue Framed := by
  intro raw value rest
  rw [readValue, readWord_takes.bind_eq_ok]
  constructor
  · rintro ⟨_, _, behind, ⟨count, rfl, rfl⟩, rfl, h⟩
    dsimp only at h
    split at h
    · cases h
      exact ⟨count.1, .null count ‹_›, rfl⟩
    · obtain ⟨_, bytes, _, ⟨hlength, rfl⟩, rfl, hvalue⟩ := (take_takes count.value.toNat).bind_eq_ok.mp h
      cases hvalue
      exact ⟨count.1 ++ bytes, .some count bytes (by omega), (List.append_assoc ..).symm⟩
  · rintro ⟨_, hframed, rfl⟩
    cases hframed with
    | null count hcount => exact ⟨_, count.1, rest, ⟨count, rfl, rfl⟩, rfl, by simp [hcount]; rfl⟩
    | some count bytes hcount =>
      refine ⟨_, count.1, bytes ++ rest, ⟨count, rfl, rfl⟩, List.append_assoc .., ?_⟩
      have hpositive : ¬ count.value < 0 := by omega
      simp only [if_neg hpositive]
      exact (take_takes count.value.toNat).bind_eq_ok.mpr ⟨bytes, bytes, rest, ⟨by omega, rfl⟩, rfl, rfl⟩

/-- Values in a row, each with its bytes. -/
theorem readMany_takes (h : Takes read standsFor) (count : Nat) :
    Takes (readMany read count) fun as bytes =>
      as.length = count ∧ ∃ parts, List.Forall₂ standsFor as parts ∧ parts.flatten = bytes := by
  induction count with
  | zero =>
    intro raw as rest
    rw [readMany]
    constructor
    · intro hread
      cases hread
      exact ⟨[], ⟨rfl, [], .nil, rfl⟩, rfl⟩
    · rintro ⟨_, ⟨hlength, parts, hparts, rfl⟩, rfl⟩
      obtain rfl := List.length_eq_zero_iff.mp hlength
      cases hparts
      rfl
  | succ count ih =>
    intro raw as rest
    rw [readMany, h.bind_eq_ok]
    constructor
    · rintro ⟨a, bytes, behind, ha, rfl, hread⟩
      obtain ⟨as, _, _, ⟨hlength, parts, hparts, rfl⟩, rfl, hrest⟩ := ih.bind_eq_ok.mp hread
      cases hrest
      exact ⟨bytes ++ parts.flatten, ⟨by rw [List.length_cons, hlength], bytes :: parts, .cons ha hparts, rfl⟩,
        (List.append_assoc ..).symm⟩
    · rintro ⟨_, ⟨hlength, parts, hparts, rfl⟩, rfl⟩
      cases hparts with
      | nil => cases hlength
      | @cons a bytes as parts ha hparts =>
        refine ⟨a, bytes, parts.flatten ++ rest, ha, List.append_assoc .., ih.bind_eq_ok.mpr ?_⟩
        exact ⟨as, parts.flatten, rest, ⟨Nat.succ.inj hlength, parts, hparts, rfl⟩, rfl, rfl⟩

/-- Values in a row, where each is read from the bytes of something. -/
theorem Takes.many {ι : Type} {value : ι → α} {image : ι → List UInt8}
    (h : Takes read fun a bytes => ∃ i, value i = a ∧ image i = bytes) (count : Nat) :
    Takes (readMany read count) fun as bytes => ∃ is : List ι, is.length = count ∧ is.map value = as ∧
      is.flatMap image = bytes := by
  intro raw as rest
  rw [readMany_takes h]
  constructor
  · rintro ⟨_, ⟨hlength, parts, hparts, rfl⟩, rfl⟩
    obtain ⟨is, hvalues, rfl⟩ := forall₂_preimages hparts
    obtain rfl := List.forall₂_eq_eq_eq ▸ List.forall₂_map_right_iff.mpr (hvalues.imp fun _ _ => Eq.symm)
    exact ⟨_, ⟨is, by rwa [List.length_map] at hlength, rfl, rfl⟩, rfl⟩
  · rintro ⟨_, ⟨is, hlength, rfl, rfl⟩, rfl⟩
    refine ⟨_, ⟨by rw [List.length_map, hlength], is.map image, ?_, rfl⟩, rfl⟩
    rw [List.forall₂_map_left_iff, List.forall₂_map_right_iff]
    exact List.forall₂_same.mpr fun i _ => ⟨i, rfl, rfl⟩

theorem readWire_takes (decode : List UInt8 → Except CodecProblem Wire) :
    Takes (readWire decode) fun w bytes => ∃ value, decodeFramed decode value = .ok w ∧ Framed value bytes := by
  intro raw w rest
  rw [readWire, readValue_takes.bind_eq_ok]
  constructor
  · rintro ⟨value, bytes, behind, hframed, rfl, h⟩
    cases value with
    | none =>
      cases h
      exact ⟨bytes, ⟨none, rfl, hframed⟩, rfl⟩
    | some raw =>
      obtain ⟨_, hw, h⟩ := bind_eq_ok.mp h
      cases h
      exact ⟨bytes, ⟨some raw, hw, hframed⟩, rfl⟩
  · rintro ⟨bytes, ⟨value, hw, hframed⟩, rfl⟩
    refine ⟨value, bytes, rest, hframed, rfl, ?_⟩
    cases value with
    | none =>
      cases hw
      rfl
    | some raw =>
      change decode raw = .ok w at hw
      simp only [hw]
      rfl

/-- Bytes that start with framed values of a type, in this order. -/
def StartWith (decode : List UInt8 → Except CodecProblem Wire) (ws : List Wire) (raw : List UInt8) : Prop :=
  ∃ (values : List (Option (List UInt8))) (parts : List (List UInt8)) (rest : List UInt8),
    raw = parts.flatten ++ rest ∧ List.Forall₂ (fun w value => decodeFramed decode value = .ok w) ws values ∧
      List.Forall₂ Framed values parts

/-- Values in a row are read where they are in front and as many as asked for. -/
theorem readWires_eq_ok {decode : List UInt8 → Except CodecProblem Wire} {count : Nat} {raw : List UInt8}
    {ws : List Wire} : (∃ rest, readMany (readWire decode) count raw = .ok (ws, rest)) ↔
      ws.length = count ∧ StartWith decode ws raw := by
  simp only [readMany_takes (readWire_takes decode) count raw ws, forall₂_through, StartWith]
  constructor
  · rintro ⟨rest, _, ⟨hlength, parts, ⟨values, hws, hframed⟩, rfl⟩, hraw⟩
    exact ⟨hlength, values, parts, rest, hraw, hws, hframed⟩
  · rintro ⟨hlength, values, parts, rest, hraw, hws, hframed⟩
    exact ⟨rest, _, ⟨hlength, parts, ⟨values, hws, hframed⟩, rfl⟩, hraw⟩

end Readers

/-- The head of an array as it is sent: the count of dimensions, two words that nothing depends on, and for
each dimension its length and its lower bound. -/
structure ArrayHeader where
  dimensions : Word
  nulls : Word
  element : Word
  axes : List (Word × Word)
  axes_length : axes.length = dimensions.value.toNat

namespace ArrayHeader

def axisBytes (axis : Word × Word) : List UInt8 := axis.1.1 ++ axis.2.1

def bytes (h : ArrayHeader) : List UInt8 :=
  h.dimensions.1 ++ h.nulls.1 ++ h.element.1 ++ h.axes.flatMap axisBytes

/-- The lengths of the dimensions, the outermost first; a negative one counts as zero. -/
def extents (h : ArrayHeader) : List Nat := h.axes.map fun axis => axis.1.value.toNat

/-- How many items an array has on each level. Without dimensions it is one empty array. -/
def levels (h : ArrayHeader) : List Nat := if h.extents.isEmpty then [0] else h.extents

theorem levels_ne_nil (h : ArrayHeader) : h.levels ≠ [] := by
  rw [levels]
  split
  · exact List.cons_ne_nil _ _
  · simp_all

end ArrayHeader

/-- A dimension is two words, and only its length is kept. -/
theorem readAxis_takes :
    Takes (fun raw => readSigned 4 raw >>= fun length =>
        readSigned 4 length.2 >>= fun lower => pure (length.1.toNat, lower.2))
      fun extent bytes => ∃ axis : Word × Word, axis.1.value.toNat = extent ∧ ArrayHeader.axisBytes axis = bytes := by
  intro raw extent rest
  rw [readWord_takes.bind_eq_ok]
  constructor
  · rintro ⟨_, _, behind, ⟨length, rfl, rfl⟩, rfl, hlower⟩
    obtain ⟨_, _, _, ⟨lower, rfl, rfl⟩, rfl, hextent⟩ := readWord_takes.bind_eq_ok.mp hlower
    cases hextent
    exact ⟨_, ⟨(length, lower), rfl, rfl⟩, (List.append_assoc ..).symm⟩
  · rintro ⟨_, ⟨⟨length, lower⟩, rfl, rfl⟩, rfl⟩
    refine ⟨_, length.1, lower.1 ++ rest, ⟨length, rfl, rfl⟩, List.append_assoc .., ?_⟩
    exact readWord_takes.bind_eq_ok.mpr ⟨_, lower.1, rest, ⟨lower, rfl, rfl⟩, rfl, rfl⟩

theorem readExtents_takes (count : Nat) :
    Takes (readExtents count) fun extents bytes => ∃ axes : List (Word × Word), axes.length = count ∧
      (axes.map fun axis => axis.1.value.toNat) = extents ∧ axes.flatMap ArrayHeader.axisBytes = bytes :=
  readAxis_takes.many count

/-- Behind its header an array is read as so many framed values as its levels tell. -/
theorem decodeArray_header (element : String) (decode : List UInt8 → Except CodecProblem Wire)
    (header : ArrayHeader) (behind : List UInt8) : decodeArray element decode (header.bytes ++ behind) =
      elementCount header.levels >>= fun total => readMany (readWire decode) total behind >>= fun read =>
        nest element header.levels read.1 := by
  obtain ⟨dimensions, nulls, type, axes, hlength⟩ := header
  have hextents := (readExtents_takes dimensions.value.toNat).reads ⟨axes, hlength, rfl, rfl⟩
  simp only [ArrayHeader.bytes, List.append_assoc, decodeArray,
    readWord_takes.reads ⟨dimensions, rfl, rfl⟩ _, readWord_takes.reads ⟨nulls, rfl, rfl⟩ _,
    readWord_takes.reads ⟨type, rfl, rfl⟩ _, hextents behind, ok_bind]
  rw [ArrayHeader.levels, ArrayHeader.extents]
  cases axes with
  | nil => simp [totalCount, elementCount, checkedMul, nest]
  | cons axis axes => rfl

/-- An array is read behind a header where so many framed values are in front, and they are its elements. -/
theorem decodeArray_eq_ok {element : String} {decode : List UInt8 → Except CodecProblem Wire}
    {header : ArrayHeader} {behind : List UInt8} {w : Wire} :
    decodeArray element decode (header.bytes ++ behind) = .ok w ↔
      ∃ leaves, elementCount header.levels = .ok leaves.length ∧ StartWith decode leaves behind ∧
        nest element header.levels leaves = .ok w := by
  rw [decodeArray_header, bind_eq_ok]
  constructor
  · rintro ⟨total, htotal, h⟩
    obtain ⟨⟨leaves, rest⟩, hread, hnest⟩ := bind_eq_ok.mp h
    obtain ⟨hlength, hleaves⟩ := readWires_eq_ok.mp ⟨rest, hread⟩
    exact ⟨leaves, hlength ▸ htotal, hleaves, hnest⟩
  · rintro ⟨leaves, htotal, hleaves, hnest⟩
    obtain ⟨rest, hread⟩ := readWires_eq_ok.mpr ⟨rfl, hleaves⟩
    exact ⟨_, htotal, bind_eq_ok.mpr ⟨(leaves, rest), hread, hnest⟩⟩

/-- What is read as an array starts with a header. -/
theorem decodeArray_headed {element : String} {decode : List UInt8 → Except CodecProblem Wire}
    {raw : List UInt8} {w : Wire} (h : decodeArray element decode raw = .ok w) :
    ∃ (header : ArrayHeader) (behind : List UInt8), raw = header.bytes ++ behind := by
  rw [decodeArray] at h
  obtain ⟨_, _, _, ⟨dimensions, rfl, rfl⟩, rfl, hnulls⟩ := readWord_takes.bind_eq_ok.mp h
  obtain ⟨_, _, _, ⟨nulls, rfl, rfl⟩, rfl, htype⟩ := readWord_takes.bind_eq_ok.mp hnulls
  obtain ⟨_, _, _, ⟨type, rfl, rfl⟩, rfl, haxes⟩ := readWord_takes.bind_eq_ok.mp htype
  obtain ⟨_, _, behind, ⟨axes, hlength, -, rfl⟩, rfl, -⟩ := (readExtents_takes _).bind_eq_ok.mp haxes
  exact ⟨⟨dimensions, nulls, type, axes, hlength⟩, behind, by simp only [ArrayHeader.bytes, List.append_assoc]⟩

end TypedSql.Protocol

import TypedSql.Proofs.Protocol.Arrays
import TypedSql.Proofs.Protocol.Reading
import TypedSql.Proofs.Text.Utf8

/-! Values are read back from the binary form in which the server sends them. -/
namespace TypedSql.Protocol

namespace Written

variable {a b : Written} {parts : List Written} {n : Nat}

@[simp] theorem bytes_append : (a ++ b).bytes = a.bytes ++ b.bytes := rfl

@[simp] theorem counts_append : (a ++ b).counts = a.counts ++ b.counts := rfl

@[simp] theorem bytes_raw (bytes : List UInt8) : (raw bytes).bytes = bytes := rfl

@[simp] theorem bytes_word (n : Int) : (word n).bytes = bytesOf 4 n := rfl

@[simp] theorem bytes_count : (count n).bytes = bytesOf 4 n := rfl

@[simp] theorem bytes_implied : (implied n).bytes = [] := rfl

@[simp] theorem bytes_concat : (concat parts).bytes = (parts.map bytes).flatten :=
  List.flatMap_def

@[simp] theorem fits_append : (a ++ b).Fits ↔ a.Fits ∧ b.Fits := by
  simp [Fits, or_imp, forall_and]

@[simp] theorem fits_concat : (concat parts).Fits ↔ ∀ p ∈ parts, p.Fits := by
  simp only [Fits, concat, List.mem_flatMap]
  exact ⟨fun h p hp n hn => h n ⟨p, hp, hn⟩, fun h n ⟨p, hp, hn⟩ => h p hp n hn⟩

@[simp] theorem fits_count : (count n).Fits ↔ n < 2 ^ 31 := by
  simp [Fits, count]

@[simp] theorem fits_implied : (implied n).Fits ↔ n < 2 ^ 31 := by
  simp [Fits, implied]

/-- The flags of a range tell what bounds it has. -/
theorem flags_told (lower upper : Bound Wire) :
    let told : RangeFlags := ⟨(flags lower upper).toNat⟩
    told.isEmpty = false ∧ told.lowerUnbounded = lower.isUnbounded ∧
      told.lowerIncluded = lower.isIncluded ∧ told.upperUnbounded = upper.isUnbounded ∧
      told.upperIncluded = upper.isIncluded := by
  dsimp only [flags]
  generalize lower.isIncluded = l, upper.isIncluded = u, lower.isUnbounded = l', upper.isUnbounded = u'
  revert l u l' u'
  decide

end Written

/-- Values in a row, each written in its place. -/
theorem readMany_written {α : Type} {read : Reader α} {as : List α} {write : Nat → α → Written}
    (hfits : (Written.concat (as.mapIdx write)).Fits)
    (h : ∀ (i : Nat), ∀ a ∈ as, (write i a).Fits → Reads read a (write i a).bytes) :
    Reads (readMany read as.length) as (Written.concat (as.mapIdx write)).bytes := by
  rw [Written.fits_concat] at hfits
  rw [Written.bytes_concat]
  refine readMany_reads (List.forall₂_map_right_iff.mpr ?_)
  refine List.forall₂_iff_get.mpr ⟨by simp, fun i hi hi' => ?_⟩
  rw [List.get_eq_getElem, List.get_eq_getElem, List.getElem_mapIdx]
  exact h i _ (List.getElem_mem hi) (hfits _ (List.mem_mapIdx.mpr ⟨i, hi, rfl⟩))

/-- A value is read back from what was written for it, if its counts fit. -/
def ReadsBack (decode : List UInt8 → Except CodecProblem Wire) (write : Wire → Written) (w : Wire) : Prop :=
  (write w).Fits → decode (write w).bytes = .ok w

section Parts

variable {decode : List UInt8 → Except CodecProblem Wire} {write : Wire → Written} {w : Wire}

theorem part_reads (h : OrNull (ReadsBack decode write) w) (hfits : (Written.part write w).Fits) :
    Reads (readWire decode) w (Written.part write w).bytes := by
  intro rest
  by_cases hnull : w = .null
  · subst hnull
    rw [readWire, Written.part, Written.bytes_word, readValue_null]
    rfl
  · have hpart : Written.part write w = .count (write w).bytes.length ++ write w := by
      cases w with
      | null => exact absurd rfl hnull
      | _ => rfl
    rw [hpart, Written.fits_append, Written.fits_count] at hfits
    have hdecode := h.resolve_left hnull hfits.2
    have hvalue := readValue_some hfits.1 rest
    rw [hpart, readWire, Written.bytes_append, Written.bytes_count, hvalue, ok_bind]
    simp only [hdecode]
    rfl

theorem extents_read {head : Written.ArrayHead} {extents : List Nat}
    (hfits : (Written.concat (extents.mapIdx fun i n => .count n ++ .word (head.start i))).Fits) :
    Reads (readExtents extents.length) extents
      (Written.concat (extents.mapIdx fun i n => .count n ++ .word (head.start i))).bytes := by
  refine readMany_written hfits fun i n _ hn rest => ?_
  rw [Written.fits_append, Written.fits_count] at hn
  obtain ⟨start, hstart⟩ := readSigned_skips 4 (head.start i)
  simp only [Written.bytes_append, Written.bytes_count, Written.bytes_word, List.append_assoc,
    readSigned_count hn.1 _, ok_bind, hstart _]
  rfl

/-- A rectangular array is read back if its elements are. -/
theorem decodeArray_readsBack {element : String} {oid : Oid} {head : Written.ArrayHead}
    {write : Nat → Wire → Written} (hw : w.Rectangular element)
    (helements : ∀ i, ∀ e ∈ w.elements, OrNull (ReadsBack decode (write i)) e) :
    ReadsBack (decodeArray element decode) (Written.array oid head write) w := by
  intro hfits
  simp only [Written.array, Written.fits_append, Written.fits_count, Written.fits_implied] at hfits
  obtain ⟨⟨⟨⟨⟨hdimensions, -⟩, -⟩, hextents⟩, hcount⟩, hparts⟩ := hfits
  have hcount' : w.elements.length < 2 ^ 64 := by omega
  obtain ⟨nulls, hnulls⟩ := readSigned_skips 4 (if head.mapsNulls || w.elements.any Wire.isNull then 1 else 0)
  obtain ⟨oid', hoid⟩ := readSigned_skips 4 oid.toNat
  have hitems := readMany_written hparts fun i e he => part_reads (helements i e he)
  have hflat := hitems []
  rw [List.append_nil] at hflat
  simp only [Written.array, Written.bytes_append, Written.bytes_count, Written.bytes_word,
    Written.bytes_implied, List.append_assoc, List.nil_append, decodeArray,
    readSigned_count hdimensions _, ok_bind, hnulls _, hoid _, Int.toNat_natCast, extents_read hextents _,
    hw.elements_count hcount', hflat, hw.nest_elements hcount']

theorem bound_reads {b : Bound Wire} (h : ∀ v ∈ b.values, OrNull (ReadsBack decode write) v)
    (hfits : (Written.bound write b).Fits) :
    Reads (readBound decode b.isUnbounded b.isIncluded) b (Written.bound write b).bytes := by
  intro rest
  cases b with
  | unbounded => rfl
  | inclusive v =>
    have hpart := part_reads (h v List.mem_cons_self) hfits rest
    have hbounded : Bound.isUnbounded (.inclusive v) = false := rfl
    rw [readBound, hbounded, if_neg Bool.false_ne_true, Written.bound, hpart]
    rfl
  | exclusive v =>
    have hpart := part_reads (h v List.mem_cons_self) hfits rest
    have hbounded : Bound.isUnbounded (.exclusive v) = false := rfl
    rw [readBound, hbounded, if_neg Bool.false_ne_true, Written.bound, hpart]
    rfl

/-- A range is read back if the values of its bounds are. -/
theorem decodeRange_readsBack {lower upper : Wire → Written} {r : Range Wire}
    (h : ∀ v ∈ r.bounds, OrNull (ReadsBack decode lower) v ∧ OrNull (ReadsBack decode upper) v) :
    (Written.range lower upper r).Fits →
      decodeRange decode (Written.range lower upper r).bytes = .ok (.range r) := by
  intro hfits
  cases r with
  | empty =>
    have hflags := readUnsigned_byte 1 []
    rw [Written.range, Written.bytes_raw, decodeRange, ← List.append_nil [1], hflags]
    rfl
  | between l u =>
    rw [Range.bounds, List.forall_mem_append] at h
    rw [Written.range, Written.fits_append, Written.fits_append] at hfits
    have hlower := bound_reads (fun v hv => (h.1 v hv).1) hfits.1.2
    have hupper := bound_reads (fun v hv => (h.2 v hv).2) hfits.2 []
    rw [List.append_nil] at hupper
    obtain ⟨hempty, hl, hl', hu, hu'⟩ := Written.flags_told l u
    have hflags := readUnsigned_byte (Written.flags l u)
    rw [decodeRange, Written.range, Written.bytes_append, Written.bytes_append, Written.bytes_raw,
      List.append_assoc, hflags, ok_bind]
    simp only [hempty, hl, hl', hu, hu', hlower _, hupper, ok_bind]
    rfl

end Parts

/-- The fields of a record are read back if they are each. -/
theorem decodeFields_written {leaves : Leaves} {fields : List (String × ServerType)}
    (h : ∀ f ∈ fields, ∀ heads w, f.2.Holds leaves w → ReadsBack f.2.decode (f.2.write leaves heads) w)
    {i : Nat} {heads : Heads} {ws : List Wire} (hw : FieldsHold leaves fields ws)
    (hfits : (Written.concat (writeFields leaves i fields heads ws)).Fits) (rest : List UInt8) :
    decodeFields fields ((Written.concat (writeFields leaves i fields heads ws)).bytes ++ rest) = .ok ws := by
  induction fields generalizing i ws with
  | nil =>
    cases ws with
    | nil => rfl
    | cons => cases hw
  | cons f fields ih =>
    obtain ⟨name, type⟩ := f
    cases ws with
    | nil => cases hw
    | cons w ws =>
      obtain ⟨hf, hfields⟩ := List.forall_mem_cons.mp h
      rw [writeFields, Written.fits_concat, List.forall_mem_cons, Written.fits_append] at hfits
      obtain ⟨oid, hoid⟩ := readSigned_skips 4 type.oid.toNat
      have hpart := part_reads (hw.1.imp_right (hf (heads.part i) w)) hfits.1.2
      have hrest := ih hfields hw.2 (Written.fits_concat.mpr hfits.2)
      rw [Written.bytes_concat] at hrest
      simp only [decodeFields, writeFields, Written.bytes_concat, List.map_cons, List.flatten_cons,
        Written.bytes_append, Written.bytes_word, List.append_assoc, hoid _, hpart _, ok_bind, hrest]
      rfl

theorem fieldsHold_length {leaves : Leaves} {fields : List (String × ServerType)} {ws : List Wire}
    (h : FieldsHold leaves fields ws) : ws.length = fields.length := by
  induction fields generalizing ws with
  | nil =>
    cases ws with
    | nil => rfl
    | cons => cases h
  | cons f fields ih =>
    cases ws with
    | nil => cases h
    | cons w ws => rw [List.length_cons, List.length_cons, ih h.2]

theorem decode_text (s : String) : Form.text.decode (Text.Utf8.encode s) = .ok (.text s) := by
  rw [Form.decode, decodeText, Text.Utf8.decode_encode]
  rfl

theorem decode_int4 (n : Int32) : Form.int4.decode (bytesOf 4 n.toInt) = .ok (.int32 n) := by
  have hn : signed (bytesOf 4 n.toInt) = n.toInt := by
    have hlow := n.le_toInt
    have hhigh := n.toInt_lt
    rw [signed_bytesOf]
    exact Int.bmod_eq_of_le_mul_two (by omega) (by omega)
  have hwhole : whole 4 .wrongSize (bytesOf 4 n.toInt) = .ok (bytesOf 4 n.toInt) := by
    simp [whole]
  rw [Form.decode, hwhole, ok_bind, hn, Int32.ofInt_toInt]
  rfl

/-- Texts and numbers of four bytes. -/
def Leaves.basic : Leaves where
  Holds
    | .int4, .int32 _ | .text, .text _ => True
    | _, _ => False
  encode _
    | .int32 n => bytesOf 4 n.toInt
    | .text s => Text.Utf8.encode s
    | _ => []
  decode_encode := by
    intro form s h
    cases s with
    | int32 n =>
      cases form with
      | int4 => exact decode_int4 n
      | _ => cases h
    | text s =>
      cases form with
      | text => exact decode_text s
      | _ => cases h
    | _ => cases form <;> cases h

/-- Every value of a type is read back from its binary form, wherever its arrays start, if the counts in
the form fit. -/
theorem ServerType.decode_write (leaves : Leaves) (t : ServerType) (heads : Heads) (w : Wire)
    (hw : t.Holds leaves w) (hfits : (t.write leaves heads w).Fits) :
    t.decode (t.write leaves heads w).bytes = .ok w := by
  induction t using ServerType.induction generalizing heads w with
  | step t ih =>
    obtain ⟨name, oid, kind⟩ := t
    cases kind with
    | simple form =>
      cases w with
      | scalar s =>
        have hdecode := leaves.decode_encode form s hw
        rw [ServerType.decode, ServerType.write, Written.bytes_raw, hdecode]
        rfl
      | _ => cases hw
    | pseudo => cases hw
    | enum labels =>
      cases w with
      | scalar s =>
        cases s with
        | text label =>
          rw [ServerType.decode, ServerType.write, Written.bytes_raw, decode_text]
          rfl
        | _ => cases hw
      | _ => cases hw
    | array element =>
      obtain ⟨hbox, helements⟩ := hw
      have helement := ih element List.mem_cons_self
      exact decodeArray_readsBack hbox
        (fun i e he => (helements e he).imp_right fun hholds => helement (heads.part i) e hholds) hfits
    | range subtype =>
      cases w with
      | range r =>
        have hsubtype := ih subtype List.mem_cons_self
        refine decodeRange_readsBack (fun v hv => ?_) hfits
        exact ⟨(hw v hv).imp_right (hsubtype _ v), (hw v hv).imp_right (hsubtype _ v)⟩
      | _ => cases hw
    | domain base => exact ih base List.mem_cons_self heads w hw hfits
    | composite fields =>
      cases w with
      | record ws =>
        have hfields : ∀ f ∈ fields, ∀ heads w, f.2.Holds leaves w →
            ReadsBack f.2.decode (f.2.write leaves heads) w :=
          fun f hf => ih f.2 (List.mem_map_of_mem hf)
        rw [ServerType.write, Written.fits_append, Written.fits_count] at hfits
        have hws := decodeFields_written hfields hw hfits.2 []
        rw [List.append_nil] at hws
        rw [ServerType.decode, ServerType.write, Written.bytes_append, Written.bytes_count,
          readSigned_count hfits.1, ok_bind]
        simp only [fieldsHold_length hw, hws]
        simp
      | _ => cases hw

/-- A record with a matrix that has a null, a label and a range over a domain. -/
theorem ServerType.decode_write_record :
    let int4 : ServerType := ⟨"int4", 23, .simple .int4⟩
    let positive : ServerType := ⟨"positive", 90010, .domain int4⟩
    let t : ServerType := ⟨"reading", 90011, .composite [("cells", ⟨"_int4", 1007, .array int4⟩),
      ("mood", ⟨"mood", 90012, .enum ["sad", "ok"]⟩), ("span", ⟨"span", 90013, .range positive⟩)]⟩
    let number (n : Int32) : Wire := .scalar (.int32 n)
    let w : Wire := .record
      [.array "int4" [.array "int4" [number 1, .null], .array "int4" [number (-3), number 4]],
        .text "ok", .range (.between (.inclusive (number 1)) .unbounded)]
    let heads : Heads := fun way => ⟨way.isEmpty, fun dimension => dimension - 1⟩
    t.Holds .basic w ∧ (t.write .basic heads w).Fits ∧ t.decode (t.write .basic heads w).bytes = .ok w := by
  intro int4 positive t number w heads
  have hcells : (ServerType.mk "_int4" 1007 (.array int4)).Holds .basic
      (.array "int4" [.array "int4" [number 1, .null], .array "int4" [number (-3), number 4]]) := by
    refine ⟨.inr ⟨[2, 2], by decide, by decide, rfl, rfl, ?_⟩, ?_⟩
    · simp [Wire.Box, number, int4]
    · simp [Wire.elements, Wire.allElements, OrNull, ServerType.Holds, Leaves.basic, number, int4]
  have hspan : (ServerType.mk "span" 90013 (.range positive)).Holds .basic
      (.range (.between (.inclusive (number 1)) .unbounded)) := by
    simp [ServerType.Holds, Range.bounds, Bound.values, OrNull, Leaves.basic, number, int4, positive]
  have hmood : "ok" ∈ ["sad", "ok"] := by decide
  have hw : t.Holds .basic w := ⟨.inr hcells, .inr hmood, .inr hspan, trivial⟩
  have hfits : (t.write .basic heads w).Fits := by decide
  exact ⟨hw, hfits, ServerType.decode_write .basic t heads w hw hfits⟩

/-- Two numbers as the server sends them. -/
example : ((ServerType.mk "_int4" 1007 (.array ⟨"int4", 23, .simple .int4⟩)).write .basic
      (fun _ => ⟨false, fun _ => 1⟩) (.array "int4" [.scalar (.int32 10), .scalar (.int32 20)])).bytes =
    [0, 0, 0, 1, 0, 0, 0, 0, 0, 0, 0, 23, 0, 0, 0, 2, 0, 0, 0, 1,
      0, 0, 0, 4, 0, 0, 0, 10, 0, 0, 0, 4, 0, 0, 0, 20] := by decide

end TypedSql.Protocol

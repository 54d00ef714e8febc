import TypedSql.Proofs.Protocol.RoundTrip
import TypedSql.Proofs.Protocol.Taking
import Mathlib.Algebra.Order.BigOperators.Group.List
import Mathlib.Data.List.TakeWhile

/-! Arrays within arrays, level by level: what the header of an array says about them, and for which headers
the counts that are taken fit in 64 bits. -/
namespace TypedSql
open Protocol

namespace Wire

/-- What stands in an array so many levels down, in the order of the rows. -/
def leavesAt : Nat → Wire → List Wire
  | 0, w => [w]
  | depth + 1, .array _ items => items.flatMap (leavesAt depth)
  | _ + 1, _ => []

/-- Whether a value is made of arrays with these counts of items, level by level, whatever stands in the
arrays of the innermost level. -/
def Layered (element : String) : List Nat → Wire → Prop
  | [], _ => True
  | extent :: inner, .array name items =>
    name = element ∧ items.length = extent ∧ ∀ w ∈ items, w.Layered element inner
  | _ :: _, _ => False

end Wire

namespace Protocol

variable {element : String} {decode : List UInt8 → Except CodecProblem Wire}

section Pieces

variable {α : Type} {size count : Nat} {items piece : List α}

@[simp] theorem pieces_length (size count : Nat) (items : List α) : (pieces size count items).length = count := by
  induction count generalizing items with
  | zero => rfl
  | succ count ih => rw [pieces, List.length_cons, ih]

theorem flatten_pieces (h : items.length = count * size) : (pieces size count items).flatten = items := by
  induction count generalizing items with
  | zero =>
    rw [Nat.zero_mul, List.length_eq_zero_iff] at h
    rw [h, pieces, List.flatten_nil]
  | succ count ih =>
    rw [Nat.succ_mul] at h
    rw [pieces, List.flatten_cons, ih (by rw [List.length_drop]; omega), List.take_append_drop]

theorem length_of_mem_pieces (hitems : items.length = count * size) (h : piece ∈ pieces size count items) :
    piece.length = size := by
  induction count generalizing items with
  | zero => cases h
  | succ count ih =>
    rw [Nat.succ_mul] at hitems
    rcases List.mem_cons.mp h with rfl | h
    · rw [List.length_take]
      omega
    · exact ih (by rw [List.length_drop]; omega) h

end Pieces

/-- Arrays within an array are made of pieces, each as long as one item has elements. -/
theorem nest_cons_eq_ok {extent extent' : Nat} {inner : List Nat} {leaves : List Wire} {w : Wire} :
    nest element (extent :: extent' :: inner) leaves = .ok w ↔ CountFits (extent' :: inner) ∧
      ∃ items, List.Forall₂ (fun piece item => nest element (extent' :: inner) piece = .ok item)
        (pieces (extent' :: inner).prod extent leaves) items ∧ w = .array element items := by
  rw [nest, bind_eq_ok]
  constructor
  · rintro ⟨size, hsize, h⟩
    obtain ⟨hfits, rfl⟩ := elementCount_eq_ok.mp hsize
    obtain ⟨items, hitems, hw⟩ := bind_eq_ok.mp h
    cases hw
    exact ⟨hfits, items, mapM_eq_ok.mp hitems, rfl⟩
  · rintro ⟨hfits, items, hitems, rfl⟩
    exact ⟨_, elementCount_eq_ok.mpr ⟨hfits, rfl⟩, bind_eq_ok.mpr ⟨items, mapM_eq_ok.mpr hitems, rfl⟩⟩

/-- Every level has the counts of items that the extents tell, and no element is left out or moved. -/
theorem nest_layered {extents : List Nat} {leaves : List Wire} {w : Wire} (hextents : extents ≠ [])
    (hcount : leaves.length = extents.prod) (h : nest element extents leaves = .ok w) :
    w.Layered element extents ∧ w.leavesAt extents.length = leaves := by
  induction extents generalizing leaves w with
  | nil => exact absurd rfl hextents
  | cons extent inner ih =>
    rw [List.prod_cons] at hcount
    cases inner with
    | nil =>
      have hflat : nest element [extent] leaves = .ok (.array element leaves) := rfl
      rw [hflat] at h
      cases h
      exact ⟨⟨rfl, by simpa using hcount, fun _ _ => trivial⟩, by simp [Wire.leavesAt]⟩
    | cons extent' inner =>
      obtain ⟨-, items, hitems, rfl⟩ := nest_cons_eq_ok.mp h
      have hpieces : List.Forall₂ (fun piece item => item.Layered element (extent' :: inner) ∧
          item.leavesAt (extent' :: inner).length = piece) (pieces (extent' :: inner).prod extent leaves) items := by
        refine List.forall₂_iff_zip.mpr ⟨hitems.length_eq, fun hmem => ?_⟩
        have hpiece := length_of_mem_pieces hcount (List.of_mem_zip hmem).1
        exact ih (List.cons_ne_nil _ _) hpiece (List.forall₂_zip hitems hmem)
      refine ⟨⟨rfl, by rw [← hitems.length_eq, pieces_length], fun item hitem => ?_⟩, ?_⟩
      · obtain ⟨piece, -, hlayered, -⟩ := forall₂_mem_right hpieces hitem
        exact hlayered
      · have hleaves : items.map (Wire.leavesAt (extent' :: inner).length) =
            pieces (extent' :: inner).prod extent leaves :=
          List.forall₂_eq_eq_eq ▸ List.forall₂_map_left_iff.mpr (hpieces.flip.imp fun _ _ h => h.2)
        rw [List.length_cons, Wire.leavesAt, List.flatMap_def, hleaves, flatten_pieces hcount]

/-- An array that is read behind a header has the levels of the header, and its elements are the values that
follow. -/
theorem decodeArray_leaves {header : ArrayHeader} {behind : List UInt8} {w : Wire}
    (h : decodeArray element decode (header.bytes ++ behind) = .ok w) :
    w.Layered element header.levels ∧ (w.leavesAt header.levels.length).length = header.levels.prod ∧
      StartWith decode (w.leavesAt header.levels.length) behind := by
  obtain ⟨leaves, htotal, hleaves, hnest⟩ := decodeArray_eq_ok.mp h
  have hcount : leaves.length = header.levels.prod := (elementCount_eq_ok.mp htotal).2.symm
  obtain ⟨hlayered, hleavesAt⟩ := nest_layered header.levels_ne_nil hcount hnest
  rw [hleavesAt]
  exact ⟨hlayered, hcount, hleaves⟩

/-- Without dimensions an array is empty. -/
theorem decodeArray_flat {header : ArrayHeader} {behind : List UInt8} {w : Wire}
    (h : decodeArray element decode (header.bytes ++ behind) = .ok w) (hnone : header.dimensions.value ≤ 0) :
    w = .array element [] := by
  have haxes : header.axes = [] := by
    rw [← List.length_eq_zero_iff, header.axes_length]
    omega
  have hlevels : header.levels = [0] := by rw [ArrayHeader.levels, ArrayHeader.extents, haxes]; rfl
  have hlayered := (decodeArray_leaves h).1
  rw [hlevels] at hlayered
  cases w with
  | array name items =>
    obtain ⟨rfl, hlength, -⟩ := hlayered
    rw [List.length_eq_zero_iff.mp hlength]
  | _ => cases hlayered

/-- Whatever is read as an array starts with a header. The array is nested as deep as the header has dimensions,
on each level every array bears the name of the element type and has as many items as the header tells for the
level, and what stands on the last level, row by row, are the values that follow the header, so many as the
product of the lengths and in their order, each decoded by the element type and null where its count is negative.
Without dimensions it is one empty array. -/
theorem decodeArray_layered (element : ServerType) :
    (∀ raw w, decodeArray element.name element.decode raw = .ok w →
      ∃ (header : ArrayHeader) (behind : List UInt8), raw = header.bytes ++ behind) ∧
    ∀ (header : ArrayHeader) (behind : List UInt8) (w : Wire),
      decodeArray element.name element.decode (header.bytes ++ behind) = .ok w →
        w.Layered element.name header.levels ∧
          (header.dimensions.value ≤ 0 → w = .array element.name []) ∧
          (w.leavesAt header.levels.length).length = header.levels.prod ∧
          StartWith element.decode (w.leavesAt header.levels.length) behind := by
  refine ⟨fun raw w h => decodeArray_headed h, fun header behind w h => ?_⟩
  obtain ⟨hlayered, hcount, hleaves⟩ := decodeArray_leaves h
  exact ⟨hlayered, decodeArray_flat h, hcount, hleaves⟩

/-- Two rows of two numbers, a null among them, and a byte behind them that nothing reads. -/
theorem decodeArray_layered_rows :
    let header : ArrayHeader := ⟨.of 0 0 0 2, .of 0 0 0 1, .of 0 0 0 23,
      [(.of 0 0 0 2, .of 0 0 0 1), (.of 0 0 0 2, .of 0 0 0 1)], by decide⟩
    let int4 : ServerType := ⟨"int4", 23, .simple .int4⟩
    let behind : List UInt8 := [0, 0, 0, 4, 0, 0, 0, 1, 255, 255, 255, 255, 0, 0, 0, 4, 255, 255, 255, 253,
      0, 0, 0, 4, 0, 0, 0, 4, 9]
    let w : Wire := .array "int4" [.array "int4" [.scalar (.int32 1), .null],
      .array "int4" [.scalar (.int32 (-3)), .scalar (.int32 4)]]
    decodeArray int4.name int4.decode (header.bytes ++ behind) = .ok w ∧
      w.Layered "int4" [2, 2] ∧ (w.leavesAt 2).length = 4 ∧ StartWith int4.decode
        [.scalar (.int32 1), .null, .scalar (.int32 (-3)), .scalar (.int32 4)] behind := by
  intro header int4 behind w
  have hnumber (n : Int32) : decodeFramed int4.decode (some (bytesOf 4 n.toInt)) = .ok (.scalar (.int32 n)) := by
    change int4.decode (bytesOf 4 n.toInt) = _
    rw [ServerType.decode, decode_int4]
    rfl
  have hframed (n : Int32) : Framed (some (bytesOf 4 n.toInt)) ([0, 0, 0, 4] ++ bytesOf 4 n.toInt) :=
    .some (.of 0 0 0 4) _ (by rw [bytesOf_length]; decide)
  have hnull : Framed none [255, 255, 255, 255] := .null (.of 255 255 255 255) (by decide)
  have hvalues : StartWith int4.decode
      [.scalar (.int32 1), .null, .scalar (.int32 (-3)), .scalar (.int32 4)] behind :=
    ⟨_, _, [9], by decide, .cons (hnumber 1) (.cons rfl (.cons (hnumber (-3)) (.cons (hnumber 4) .nil))),
      .cons (hframed 1) (.cons hnull (.cons (hframed (-3)) (.cons (hframed 4) .nil)))⟩
  have hlevels : header.levels = [2, 2] := by decide
  have hw : decodeArray int4.name int4.decode (header.bytes ++ behind) = .ok w :=
    decodeArray_eq_ok.mpr ⟨_, by rw [hlevels]; rfl, hvalues, by rw [hlevels]; rfl⟩
  obtain ⟨hlayered, -, hcount, hleaves⟩ := (decodeArray_layered int4).2 header behind w hw
  rw [hlevels] at hlayered hcount hleaves
  exact ⟨hw, hlayered, hcount, hleaves⟩

section Counts

variable {extents : List Nat}

end Counts

end Protocol
end TypedSql

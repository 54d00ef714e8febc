import TypedSql.Protocol.Decode
import TypedSql.Proofs.Value.Induction
import Mathlib.Algebra.Group.Nat.Defs

/-! The binary form in which the server sends values, and the values that have one. -/
namespace TypedSql

namespace Bound

variable {α : Type}

def isIncluded : Bound α → Bool
  | inclusive _ => true
  | _ => false

def isUnbounded : Bound α → Bool
  | unbounded => true
  | _ => false

end Bound

namespace Wire

mutual

/-- What stands in an array below all arrays within it, in the order of the rows; any other value is
alone. -/
def elements : Wire → List Wire
  | .array _ items => allElements items
  | .null => [.null]
  | .scalar s => [.scalar s]
  | .record fields => [.record fields]
  | .range r => [.range r]

def allElements : List Wire → List Wire
  | [] => []
  | w :: rest => w.elements ++ allElements rest

end

/-- The extents of an array, the outermost first, as its first rows tell them. An array without elements
has none. -/
def extents : Wire → List Nat
  | .array _ (w :: rest) => (rest.length + 1) :: w.extents
  | _ => []

/-- Whether a value is a box of these extents: arrays of arrays, and in the innermost no array. -/
def Box (element : String) : List Nat → Wire → Prop
  | [], .array _ _ => False
  | [], _ => True
  | extent :: inner, .array name items =>
    name = element ∧ items.length = extent ∧ ∀ w ∈ items, w.Box element inner
  | _ :: _, _ => False

/-- An array is empty, or it has the same extents everywhere and none is zero. -/
def Rectangular (element : String) (w : Wire) : Prop :=
  w = .array element [] ∨ ∃ extents, extents ≠ [] ∧ 0 ∉ extents ∧ w.Box element extents

end Wire

namespace Protocol

/-- Bytes as they are written, and the counts that they tell. -/
structure Written where
  bytes : List UInt8
  counts : List Nat

namespace Written

instance : Append Written := ⟨fun a b => ⟨a.bytes ++ b.bytes, a.counts ++ b.counts⟩⟩

def raw (bytes : List UInt8) : Written := ⟨bytes, []⟩

/-- A word that is no count. -/
def word (n : Int) : Written := raw (bytesOf 4 n)

def count (n : Nat) : Written := ⟨bytesOf 4 n, [n]⟩

/-- A count that others tell, and that is not written itself. -/
def implied (n : Nat) : Written := ⟨[], [n]⟩

def concat (parts : List Written) : Written := ⟨parts.flatMap bytes, parts.flatMap counts⟩

/-- Whether all counts fit in 31 bits. -/
def Fits (a : Written) : Prop := ∀ n ∈ a.counts, n < 2 ^ 31

instance (a : Written) : Decidable a.Fits := inferInstanceAs (Decidable (∀ n ∈ a.counts, n < 2 ^ 31))

/-- A part of a value behind the count of its bytes; null has the count -1 and no bytes. -/
def part (write : Wire → Written) : Wire → Written
  | .null => word (-1)
  | w => count (write w).bytes.length ++ write w

/-- What the head of an array tells besides its extents: whether it has a map of nulls, which it may
have without a null, and where each dimension starts. -/
structure ArrayHead where
  mapsNulls : Bool
  start : Nat → Int

/-- The count of dimensions, whether there may be nulls, the identifier of the element type, the extents
with their lower bounds, and the elements in the order of the rows. -/
def array (element : Oid) (head : ArrayHead) (write : Nat → Wire → Written) (w : Wire) : Written :=
  count w.extents.length ++ word (if head.mapsNulls || w.elements.any Wire.isNull then 1 else 0) ++
    word element.toNat ++
    concat (w.extents.mapIdx fun i extent => count extent ++ word (head.start i)) ++
    implied w.elements.length ++
    concat (w.elements.mapIdx fun i e => part (write i) e)

/-- The flags of a range with these bounds: which are included and which there are not. -/
def flags (lower upper : Bound Wire) : UInt8 :=
  (if lower.isIncluded then 2 else 0) + (if upper.isIncluded then 4 else 0) +
    (if lower.isUnbounded then 8 else 0) + if upper.isUnbounded then 16 else 0

def bound (write : Wire → Written) : Bound Wire → Written
  | .inclusive w | .exclusive w => part write w
  | .unbounded => raw []

def range (lower upper : Wire → Written) : Range Wire → Written
  | .empty => raw [1]
  | .between l u => raw [flags l u] ++ bound lower l ++ bound upper u

end Written

/-- The types that a type of this kind is made of. -/
def ServerKind.parts : ServerKind → List ServerType
  | .array t | .range t | .domain t => [t]
  | .composite fields => fields.map Prod.snd
  | .simple _ | .pseudo | .enum _ => []

/-- Types by induction: what holds of all parts of a type holds of the type. -/
@[elab_as_elim] theorem ServerType.induction {P : ServerType → Prop}
    (step : ∀ t, (∀ part ∈ t.kind.parts, P part) → P t) (t : ServerType) : P t := by
  have none : ∀ part ∈ ([] : List ServerType), P part := List.forall_mem_nil P
  have single (part : ServerType) (ih : P part) : ∀ t ∈ [part], P t := List.forall_mem_singleton.mpr ih
  have composite (fields : List (String × ServerType)) (ih : ∀ f ∈ fields, P f.2) :
      ∀ part ∈ fields.map Prod.snd, P part := List.forall_mem_map.mpr ih
  exact @ServerType.rec P (fun kind => ∀ part ∈ kind.parts, P part) (fun fields => ∀ f ∈ fields, P f.2)
    (fun f => P f.2) (fun name oid kind ih => step ⟨name, oid, kind⟩ ih) (fun _ => none) none
    (fun _ => none) single single single composite (List.forall_mem_nil _)
    (fun _ _ hf hfields => List.forall_mem_cons.mpr ⟨hf, hfields⟩) (fun _ _ ih => ih) t

/-- The leaf values of each form with their bytes, from which they are read back. -/
structure Leaves where
  Holds : Form → Scalar → Prop
  encode : Form → Scalar → List UInt8
  decode_encode : ∀ form s, Holds form s → form.decode (encode form s) = .ok s

/-- The heads of all arrays in a value, by the way that leads to them. -/
abbrev Heads := List Nat → Written.ArrayHead

/-- The heads of the arrays in a part of a value. -/
def Heads.part (heads : Heads) (i : Nat) : Heads := fun way => heads (i :: way)

mutual

/-- The binary form of a value of a type. -/
def ServerType.write (leaves : Leaves) : ServerType → Heads → Wire → Written
  | ⟨_, _, kind⟩, heads, w =>
    match kind, w with
    | .array element, w =>
      .array element.oid (heads []) (fun i => element.write leaves (heads.part i)) w
    | .composite fields, .record ws => .count ws.length ++ .concat (writeFields leaves 0 fields heads ws)
    | .range subtype, .range r =>
      .range (subtype.write leaves (heads.part 0)) (subtype.write leaves (heads.part 1)) r
    | .domain base, w => base.write leaves heads w
    | .enum _, .scalar (.text s) => .raw (Text.Utf8.encode s)
    | .simple form, .scalar s => .raw (leaves.encode form s)
    | _, _ => .raw []

/-- The fields of a record from an index on, each behind the identifier of its type. -/
def writeFields (leaves : Leaves) (i : Nat) : List (String × ServerType) → Heads → List Wire → List Written
  | (_, type) :: fields, heads, w :: ws =>
    (.word type.oid.toNat ++ .part (type.write leaves (heads.part i)) w) ::
      writeFields leaves (i + 1) fields heads ws
  | _, _, _ => []

end

/-- Null, or a value of which `P` holds. -/
def OrNull (P : Wire → Prop) (w : Wire) : Prop := w = .null ∨ P w

mutual

/-- The values of a type: arrays, records with a value for each field, ranges, labels and leaves, with
nulls in them. -/
def ServerType.Holds (leaves : Leaves) : ServerType → Wire → Prop
  | ⟨_, _, kind⟩, w =>
    match kind, w with
    | .array element, w => w.Rectangular element.name ∧ ∀ e ∈ w.elements, OrNull (element.Holds leaves) e
    | .composite fields, .record ws => FieldsHold leaves fields ws
    | .range subtype, .range r => ∀ v ∈ r.bounds, OrNull (subtype.Holds leaves) v
    | .domain base, w => base.Holds leaves w
    | .enum labels, .scalar (.text s) => s ∈ labels
    | .simple form, .scalar s => leaves.Holds form s
    | _, _ => False

def FieldsHold (leaves : Leaves) : List (String × ServerType) → List Wire → Prop
  | [], [] => True
  | (_, type) :: fields, w :: ws => OrNull (type.Holds leaves) w ∧ FieldsHold leaves fields ws
  | _, _ => False

end

end Protocol
end TypedSql

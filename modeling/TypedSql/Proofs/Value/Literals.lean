import TypedSql.Proofs.Value.Parts
import TypedSql.Proofs.Value.Induction
import Mathlib.Data.List.Forall2

/-! Text forms read back: whoever expects the right containers at their places finds in the text what was
written. -/
namespace TypedSql
open Literal

namespace Wire

mutual

/-- What the text form tells of a value: an array does not name the type of its elements. -/
def outline : Wire → Outline
  | null => .null
  | scalar s => .text s.literal.toList
  | array _ items => .array (outlineAll items)
  | record fields => .record (outlineAll fields)
  | range .empty => .range .empty
  | range (.between lower upper) => .range (.between (outlineBound lower) (outlineBound upper))

def outlineAll : List Wire → List Outline
  | [] => []
  | w :: rest => w.outline :: outlineAll rest

def outlineBound : Bound Wire → Bound Outline
  | .inclusive w => .inclusive w.outline
  | .exclusive w => .exclusive w.outline
  | .unbounded => .unbounded

end

theorem outlineAll_eq (ws : List Wire) : outlineAll ws = ws.map outline := by
  induction ws with
  | nil => rfl
  | cons w ws ih => rw [outlineAll, ih, List.map_cons]

/-- Values whose ranges, at any depth, have no bounds that are null. -/
inductive BoundsPresent : Wire → Prop
  | null : BoundsPresent .null
  | scalar (s : Scalar) : BoundsPresent (.scalar s)
  | array {element : String} {items : List Wire} (hitems : ∀ w ∈ items, BoundsPresent w) :
    BoundsPresent (.array element items)
  | record {fields : List Wire} (hfields : ∀ w ∈ fields, BoundsPresent w) :
    BoundsPresent (.record fields)
  | range {r : Range Wire} (hnull : ∀ w ∈ r.bounds, w ≠ .null)
    (hbounds : ∀ w ∈ r.bounds, BoundsPresent w) : BoundsPresent (.range r)

end Wire

/-- Whether a value is what is expected at its place: the right container with the right number of
fields, each of which is what is expected. Null is no surprise anywhere. -/
inductive Literal.Shape.Fits : Shape → Wire → Prop
  | null (shape : Shape) : Fits shape .null
  | scalar (s : Scalar) : Fits .scalar (.scalar s)
  | array {shapes : Nat → Shape} {element : String} {items : List Wire}
    (hitems : ∀ i w, items[i]? = some w → Fits (shapes i) w) : Fits (.array shapes) (.array element items)
  | record {shapes : List Shape} {fields : List Wire} (harity : shapes.length = fields.length)
    (hfields : ∀ shape w, (shape, w) ∈ shapes.zip fields → Fits shape w) :
    Fits (.record shapes) (.record fields)
  | empty (lower upper : Shape) : Fits (.range lower upper) (.range .empty)
  | between {lower upper : Shape} {a b : Bound Wire} (hlower : ∀ w ∈ a.values, Fits lower w)
    (hupper : ∀ w ∈ b.values, Fits upper w) : Fits (.range lower upper) (.range (.between a b))

namespace Wire

mutual

/-- What is to be expected where a value stands. -/
def shape : Wire → Shape
  | null | scalar _ => .scalar
  | array _ items => .array fun i => (shapeAll items)[i]?.getD .scalar
  | record fields => .record (shapeAll fields)
  | range .empty => .range .scalar .scalar
  | range (.between lower upper) => .range (shapeBound lower) (shapeBound upper)

def shapeAll : List Wire → List Shape
  | [] => []
  | w :: rest => w.shape :: shapeAll rest

def shapeBound : Bound Wire → Shape
  | .inclusive w | .exclusive w => w.shape
  | .unbounded => .scalar

end

theorem shapeAll_eq (ws : List Wire) : shapeAll ws = ws.map shape := by
  induction ws with
  | nil => rfl
  | cons w ws ih => rw [shapeAll, ih, List.map_cons]

theorem shapeBound_of_mem {b : Bound Wire} {w : Wire} (h : w ∈ b.values) : shapeBound b = w.shape := by
  cases b <;> simp_all [Bound.values, shapeBound]

theorem shape_fits (w : Wire) : w.shape.Fits w := by
  induction w using Wire.induction with
  | null => exact .null _
  | scalar s => exact .scalar s
  | array element items ih =>
    refine .array fun i w hw => ?_
    rw [shapeAll_eq, List.getElem?_map, hw]
    exact ih w (List.mem_of_getElem? hw)
  | record fields ih =>
    rw [shape, shapeAll_eq]
    have h : List.Forall₂ Shape.Fits (fields.map shape) fields :=
      List.forall₂_map_left_iff.mpr (List.forall₂_same.mpr ih)
    obtain ⟨harity, hfields⟩ := List.forall₂_iff_zip.mp h
    exact .record harity fun s w hmem => hfields hmem
  | range r ih =>
    cases r with
    | empty => exact .empty _ _
    | between lower upper =>
      simp only [Range.bounds, List.mem_append] at ih
      refine .between (fun w hw => ?_) fun w hw => ?_
      · exact shapeBound_of_mem hw ▸ ih w (.inl hw)
      · exact shapeBound_of_mem hw ▸ ih w (.inr hw)

/-- An item of an array as it is written. -/
def itemText : Wire → List Char
  | null => "NULL".toList
  | array element items => (array element items).literalChars
  | w => quote w.literalChars

/-- A field of a record as it is written. -/
def fieldText : Wire → List Char
  | null => []
  | w => quote w.literalChars

/-- The value of a bound as it is written. -/
def boundText : Bound Wire → List Char
  | .inclusive w | .exclusive w => quote w.literalChars
  | .unbounded => []

/-- Whether a bound belongs to the range. -/
def included : Bound Wire → Bool
  | .inclusive _ => true
  | _ => false

def opening (b : Bound Wire) : Char := if included b then '[' else '('

def closing (b : Bound Wire) : Char := if included b then ']' else ')'

theorem itemChars_eq (ws : List Wire) : itemChars ws = ws.map itemText := by
  induction ws with
  | nil => rfl
  | cons w ws ih => cases w <;> simp [itemChars, itemText, ih]

theorem fieldChars_eq (ws : List Wire) : fieldChars ws = ws.map fieldText := by
  induction ws with
  | nil => rfl
  | cons w ws ih => cases w <;> simp [fieldChars, fieldText, ih]

theorem range_literalChars (lower upper : Bound Wire) :
    (range (.between lower upper)).literalChars =
      opening lower :: commas [boundText lower, boundText upper] ++ [closing upper] := by
  rw [literalChars]
  cases lower <;> cases upper <;>
    simp [lowerChars, upperChars, boundText, opening, closing, included, commas]

variable {w : Wire} {shape : Shape}

theorem nil_notMem_itemTexts (ws : List Wire) : [] ∉ ws.map itemText := by
  rw [List.mem_map]
  rintro ⟨w, -, hw⟩
  cases w <;> cases hw

theorem whole_itemText (w : Wire) : Whole true w.itemText := by
  induction w using Wire.induction with
  | null => exact whole_plain (by simp [itemText])
  | array element items ih =>
    rw [itemText, literalChars, itemChars_eq]
    refine whole_braces fun p hp => ?_
    obtain ⟨w, hw, rfl⟩ := List.mem_map.mp hp
    exact ih w hw
  | _ => exact whole_quote _

theorem whole_fieldText (w : Wire) : Whole false w.fieldText := by
  cases w
  case null => exact whole_nil
  all_goals exact whole_quote _

theorem whole_boundText (b : Bound Wire) : Whole false (boundText b) := by
  cases b
  case unbounded => exact whole_nil
  all_goals exact whole_quote _

theorem arrayParts_literal (element : String) (items : List Wire) :
    arrayParts (array element items).literalChars = some (items.map itemText) := by
  rw [literalChars, itemChars_eq, arrayParts, enclosed_between]
  simp only [commas_isEmpty (nil_notMem_itemTexts items)]
  split
  · simp_all
  · refine split_commas (fun p hp => ?_) (by simp_all)
    obtain ⟨w, -, rfl⟩ := List.mem_map.mp hp
    exact whole_itemText w

theorem recordParts_literal (fields : List Wire) :
    recordParts fields.length (record fields).literalChars = some (fields.map fieldText) := by
  rw [literalChars, fieldChars_eq, recordParts, enclosed_between]
  cases fields with
  | nil => rfl
  | cons w fields =>
    change split false 0 false _ = _
    refine split_commas (fun p hp => ?_) (by simp)
    obtain ⟨w, -, rfl⟩ := List.mem_map.mp hp
    exact whole_fieldText w

/-- A shape reads a value back, unless it is null. -/
def ReadBy (shape : Shape) (w : Wire) : Prop := w ≠ .null → shape.read w.literalChars = some w.outline

theorem readElement_itemText (hfits : shape.Fits w) (hread : ReadBy shape w) :
    readElement shape.isArray shape.read w.itemText = some w.outline := by
  cases hfits with
  | null => rfl
  | array _ => exact (readElement_braces _ _).trans (hread (by simp))
  | _ => exact (readElement_quote _ _).trans (hread (by simp))

theorem readField_fieldText (hread : ReadBy shape w) :
    readField shape.read w.fieldText = some w.outline := by
  cases w
  case null => rfl
  all_goals exact (readField_quote _ _).trans (hread (by simp))

theorem readElements_itemTexts {read : Nat → List Char → Option Outline} (ws : List Wire) (start : Nat)
    (hread : ∀ i w, ws[i]? = some w → read (start + i) w.itemText = some w.outline) :
    readElements read start (ws.map itemText) = some (ws.map outline) := by
  induction ws generalizing start with
  | nil => rfl
  | cons w ws ih =>
    have hrest : readElements read (start + 1) (ws.map itemText) = some (ws.map outline) :=
      ih (start + 1) fun i v hv => by simpa [Nat.add_right_comm, Nat.add_assoc] using hread (i + 1) v hv
    rw [List.map_cons, readElements, hrest, show read start w.itemText = _ from hread 0 w rfl]
    rfl

theorem readFields_fieldTexts {shapes : List Shape} {ws : List Wire} (h : List.Forall₂ ReadBy shapes ws) :
    Shape.readFields shapes (ws.map fieldText) = some (ws.map outline) := by
  induction h with
  | nil => rfl
  | cons hread _ ih =>
    rw [List.map_cons, Shape.readFields, readField_fieldText hread, ih]
    rfl

theorem readBound_boundText {b : Bound Wire}
    (hread : ∀ w ∈ b.values, shape.read w.literalChars = some w.outline) :
    readBound (included b) shape.read (boundText b) = some (outlineBound b) := by
  cases b
  case unbounded => rfl
  all_goals
    rw [boundText, readBound_quote, hread _ List.mem_cons_self]
    rfl

theorem readRange_between {lower upper : Shape} {a b : Bound Wire}
    (hlower : ∀ w ∈ a.values, lower.read w.literalChars = some w.outline)
    (hupper : ∀ w ∈ b.values, upper.read w.literalChars = some w.outline) :
    readRange lower.read upper.read (range (.between a b)).literalChars =
      some (.between (outlineBound a) (outlineBound b)) := by
  have hword (rest : List Char) : isWord "empty" (opening a :: rest) = false := by
    cases a <;> simp [isWord, opening, included]
  have hopening : decide (opening a = '[') = included a := by cases a <;> rfl
  have hclosing : decide (closing b = ']') = included b := by cases b <;> rfl
  have hbrackets : ((opening a = '[' || opening a = '(') && (closing b = ']' || closing b = ')')) = true := by
    cases a <;> cases b <;> rfl
  have hparts : split false 0 false (commas [boundText a, boundText b]) = some [boundText a, boundText b] :=
    split_commas (by simp [whole_boundText]) (by simp)
  rw [range_literalChars, readRange, List.cons_append, hword, ← List.cons_append, enclosed_between]
  simp only [Bool.false_eq_true, if_false, hbrackets, if_true, hparts]
  rw [hopening, hclosing, readBound_boundText hlower, readBound_boundText hupper]
  rfl

/-- The step for every container: what stands in it reads back wherever it is expected. -/
theorem readBy_of_fits (w : Wire) (hbounds : w.BoundsPresent) (hfits : shape.Fits w) :
    ReadBy shape w := by
  induction hbounds generalizing shape with
  | null => exact fun hnull => absurd rfl hnull
  | scalar s =>
    cases hfits
    exact fun _ => rfl
  | @array element items _ ih =>
    cases hfits with
    | array hitems =>
      intro _
      have hread := readElements_itemTexts items 0 fun i w hw => by
        rw [Nat.zero_add]
        exact readElement_itemText (hitems i w hw) (ih w (List.mem_of_getElem? hw) (hitems i w hw))
      rw [Shape.read, arrayParts_literal]
      simp only [Option.bind_eq_bind, Option.bind_some, hread, outline, outlineAll_eq]
      rfl
  | @record fields _ ih =>
    cases hfits with
    | @record shapes _ harity hfields =>
      intro _
      have hread : List.Forall₂ ReadBy shapes fields := List.forall₂_iff_zip.mpr ⟨harity, fun hmem =>
        ih _ (List.of_mem_zip hmem).2 (hfields _ _ hmem)⟩
      rw [Shape.read, harity, recordParts_literal]
      simp only [Option.bind_eq_bind, Option.bind_some, readFields_fieldTexts hread, outline, outlineAll_eq]
      rfl
  | @range r hnull _ ih =>
    cases hfits with
    | empty => exact fun _ => rfl
    | between hlower hupper =>
      intro _
      simp only [Range.bounds, List.mem_append] at hnull ih
      rw [Shape.read, readRange_between (fun w hw => ih w (.inl hw) (hlower w hw) (hnull w (.inl hw)))
        fun w hw => ih w (.inr hw) (hupper w hw) (hnull w (.inr hw))]
      rfl

/-- The text form of a value reads back for whoever knows which containers to expect: the same structure,
with nulls where they were and each leaf as its own text form. Bounds have to be there to be written. -/
theorem literal_reads_back {w : Wire} (hnull : w ≠ .null) (hbounds : w.BoundsPresent) :
    ∃ s, w.literal? = some s ∧ w.shape.Fits w ∧
      ∀ shape : Shape, shape.Fits w → shape.read s.toList = some w.outline := by
  have hsome : w.isNull = false := by
    cases w
    case null => exact absurd rfl hnull
    all_goals rfl
  refine ⟨.ofList w.literalChars, by simp [literal?, hsome], w.shape_fits, fun shape hfits => ?_⟩
  rw [String.toList_ofList]
  exact readBy_of_fits w hbounds hfits hnull

/-- An array within an array, a null beside the text that spells it, and in a record a text with signs of
the syntax, a null, and a range that is open to one side. -/
theorem literal_reads_back_nested :
    let span : Wire := .range (.between (.inclusive (.scalar (.int32 1))) .unbounded)
    let pair : Wire := .record [.text "a\"\\,\x7d", .null, span]
    let w : Wire := .array "pair" [.array "pair" [pair, .array "pair" []], .null, .text "NULL"]
    (w ≠ .null ∧ w.BoundsPresent) ∧ ∃ s, w.literal? = some s ∧ w.shape.Fits w ∧
      ∀ shape : Shape, shape.Fits w → shape.read s.toList = some w.outline := by
  intro span pair w
  have hspan : span.BoundsPresent := .range (by simp [Range.bounds, Bound.values]) <| by
    simpa [Range.bounds, Bound.values] using .scalar _
  have hpair : pair.BoundsPresent := .record <| by
    simpa [hspan] using ⟨.scalar _, .null⟩
  have hw : w.BoundsPresent := .array <| by
    have hnested : (Wire.array "pair" [pair, .array "pair" []]).BoundsPresent :=
      .array (by simpa [hpair] using .array (by simp))
    simpa [hnested] using ⟨.null, .scalar _⟩
  exact ⟨⟨by simp [w], hw⟩, literal_reads_back (by simp [w]) hw⟩

/-- A record of three fields within an array, the second of which is null. -/
example : (Shape.array fun _ => .record [.scalar, .scalar, .scalar]).read
    "\x7b\"(\\\"Main\\\",,\\\"5\\\")\"\x7d".toList =
      some (.array [.record [.text "Main".toList, .null, .text "5".toList]]) := by
  rfl

end Wire
end TypedSql

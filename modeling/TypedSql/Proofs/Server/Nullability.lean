import TypedSql.Proofs.Conversion.Inhabitants
import TypedSql.Proofs.Server.Fields

/-! Rows that were read hold inhabitants of the types of the outputs, and nulls at every depth only where
the types let them stand. -/
namespace TypedSql
open Sql Server

/-- A field of a composite type somewhere in a value of a type, and what the value holds there. -/
inductive TypeKind.Holds : TypeKind → Value → Field → Value → Prop
  | here {fields : List Field} {given : List (String × Value)} {f : Field} {name : String} {u : Value}
    (hu : (f, name, u) ∈ fields.zip given) : Holds (.composite fields) (.record given) f u
  | within {fields : List Field} {given : List (String × Value)} {f g : Field} {name : String}
    {v u : Value} (hv : (g, name, v) ∈ fields.zip given) (h : g.type.kind.Holds v f u) :
    Holds (.composite fields) (.record given) f u
  | domain {base : TypeRef} {v u : Value} {f : Field} (h : base.kind.Holds v f u) :
    Holds (.domain base) (.domain v) f u
  | element {element : TypeRef} {items : List Value} {v u : Value} {f : Field}
    (hv : v ∈ Value.allElements items) (h : element.kind.Holds v f u) :
    Holds (.array element) (.array items) f u
  | bound {subtype : TypeRef} {r : Range Value} {v u : Value} {f : Field} (hv : v ∈ r.bounds)
    (h : subtype.kind.Holds v f u) : Holds (.range subtype) (.range r) f u

theorem TypeKind.Holds.ne_null {kind : TypeKind} {v u : Value} {f : Field} (h : kind.Holds v f u) :
    v ≠ .null := by
  rintro rfl
  cases h

/-- At every depth a field holds null only where it may. -/
theorem TypeKind.Inhabits.nullable_of_holds {kind : TypeKind} {v : Value} {f : Field}
    (h : kind.Inhabits v) (hholds : kind.Holds v f .null) : f.type.nullable = true := by
  -- by induction on the way to the field; on it no value is null, so each inhabits its type
  generalize hu : Value.null = u at hholds
  induction hholds with
  | here hmem =>
    subst hu
    cases h with
    | composite _ hnulls _ => exact hnulls _ _ hmem
  | within hmem hv ih =>
    cases h with
    | composite _ _ hvalues => exact ih (hvalues _ _ _ hmem hv.ne_null) hu
  | domain _ ih =>
    cases h with
    | domain hv => exact ih hv hu
  | element hmem hv ih =>
    cases h with
    | array _ helements => exact ih (helements _ hmem hv.ne_null) hu
  | bound hmem hv ih =>
    cases h with
    | range hbounds => exact ih (hbounds _ hmem hv.ne_null) hu

namespace Server

/-- What is read in a type is null exactly where null was received, and else inhabits the type at every
depth. Hence the column of an output in a row holds null only where the output may be null, and no value in
it, at any depth, holds null in a field that must not be. -/
theorem read_inhabits :
    (∀ (t : TypeRef) (w : Wire) (v : Value), t.decode w = .ok v →
      (v = .null ↔ w = .null) ∧ (v ≠ .null → t.kind.Inhabits v)) ∧
    ∀ (outputs : List Output) (row : List Wire) (record : Record), decodeRow outputs row = .ok record →
      ∃ columns : List (List (String × Value)), record.fields = columns.flatten ∧
        columns.length = outputs.length ∧
        ∀ (k : Nat) (o : Output), outputs[k]? = some o → ∃ v, columns[k]? = some (o.fields.map (·, v)) ∧
          (v = .null → o.type.nullable = true) ∧ (v ≠ .null → o.type.kind.Inhabits v) ∧
          ∀ f, o.type.kind.Holds v f .null → f.type.nullable = true := by
  refine ⟨fun t w v h => ?_, fun outputs row record h => ?_⟩
  · exact ⟨TypeDescriptor.decode_null_iff h, TypeDescriptor.decode_inhabits h⟩
  · obtain ⟨columns, hfields, hlength, hcolumns⟩ := decodeRow_columns h
    refine ⟨columns, hfields, hlength, fun k o hk => ?_⟩
    obtain ⟨w, v, hw, hdecode, hcolumn⟩ := hcolumns k o hk
    have hinhabits := TypeDescriptor.decode_inhabits hdecode
    refine ⟨v, hcolumn, ?_, hinhabits, fun f hholds => (hinhabits hholds.ne_null).nullable_of_holds hholds⟩
    rintro rfl
    exact decodeRow_nullable h hk (TypeDescriptor.decode_eq_null hdecode ▸ hw)

/-- A row with people, one of them null and one without a note, and with a count that fills two fields. -/
theorem read_inhabits_people :
    let email : TypeRef := ⟨⟨1, "email", "public", none, .domain (.builtin .text false), 1⟩, false⟩
    let person : TypeRef := ⟨⟨2, "person", "public", some 3,
      .composite [⟨"contact", email⟩, ⟨"note", .builtin .text true⟩], 2⟩, true⟩
    let people : TypeRef := ⟨⟨3, "_person", "public", none, .array person, 3⟩, false⟩
    let outputs : List Output := [⟨"a", people, ["people"]⟩, ⟨"b", .builtin .int4 true, ["count", "total"]⟩]
    let w : Wire := .array "person" [.record [.text "x@y", .null], .null]
    let v : Value := .array [.record [("contact", .domain (.scalar (.text "x@y"))), ("note", .null)], .null]
    decodeRow outputs [w, .null] = .ok ⟨[("people", v), ("count", .null), ("total", .null)]⟩ ∧
      people.kind.Inhabits v ∧ ∀ f, people.kind.Holds v f .null → f.type.nullable = true := by
  intro email person people outputs w v
  have hrow : decodeRow outputs [w, .null] =
      .ok ⟨[("people", v), ("count", .null), ("total", .null)]⟩ := by rfl
  obtain ⟨columns, hfields, -, hcolumns⟩ := read_inhabits.2 outputs _ _ hrow
  obtain ⟨u, hcolumn, -, hinhabits, hholds⟩ := hcolumns 0 ⟨"a", people, ["people"]⟩ rfl
  cases columns with
  | nil => cases hcolumn
  | cons column rest =>
    cases hcolumn
    obtain ⟨⟨-, rfl⟩, -⟩ : (("people" = "people") ∧ v = u) ∧ _ := by
      simpa only [List.flatten_cons, List.map_cons, List.map_nil, List.cons_append, List.cons.injEq,
        Prod.mk.injEq] using hfields
    exact ⟨hrow, hinhabits nofun, hholds⟩

end Server
end TypedSql

import TypedSql.Catalog.Descriptor

/-! The types that a type is made of, and induction over them. -/
namespace TypedSql

/-- The types that a type of this kind is made of, each as it is used. -/
def TypeKind.parts : TypeKind → List TypeRef
  | .domain t | .array t | .range t => [t]
  | .composite fields => fields.map Field.type
  | .unknown | .base _ | .enum _ => []

/-- Types by induction: what holds of all parts of a type holds of the type. -/
@[elab_as_elim] theorem TypeDescriptor.induction {P : TypeDescriptor → Prop}
    (step : ∀ d, (∀ t ∈ d.kind.parts, P t.descriptor) → P d) (d : TypeDescriptor) : P d := by
  refine @TypeDescriptor.rec P (fun kind => ∀ t ∈ kind.parts, P t.descriptor)
    (fun t => P t.descriptor) (fun f => P f.type.descriptor) (fun fs => ∀ f ∈ fs, P f.type.descriptor)
    (fun oid name schema arrayOid kind stamp ih => step ⟨oid, name, schema, arrayOid, kind, stamp⟩ ih)
    ?_ ?_ ?_ ?_ ?_ ?_ ?_ (fun _ _ ih => ih) (fun _ _ ih => ih) ?_ ?_ d <;>
    simp_all [TypeKind.parts]

mutual

/-- A type and all the types it is made of. -/
def TypeDescriptor.types : TypeDescriptor → List TypeDescriptor
  | ⟨oid, name, schema, arrayOid, kind, stamp⟩ =>
    ⟨oid, name, schema, arrayOid, kind, stamp⟩ :: kind.types

def TypeKind.types : TypeKind → List TypeDescriptor
  | .domain ⟨d, _⟩ | .array ⟨d, _⟩ | .range ⟨d, _⟩ => d.types
  | .composite fields => Field.allTypes fields
  | .unknown | .base _ | .enum _ => []

def Field.allTypes : List Field → List TypeDescriptor
  | [] => []
  | ⟨_, ⟨d, _⟩⟩ :: rest => d.types ++ Field.allTypes rest

end

theorem Field.allTypes_eq (fields : List Field) :
    Field.allTypes fields = fields.flatMap fun f => f.type.descriptor.types := by
  induction fields with
  | nil => rfl
  | cons f rest ih =>
    obtain ⟨_, _, _⟩ := f
    rw [Field.allTypes, ih, List.flatMap_cons]

theorem TypeKind.types_eq (kind : TypeKind) :
    kind.types = kind.parts.flatMap fun t => t.descriptor.types := by
  cases kind with
  | composite fields => rw [types, Field.allTypes_eq, parts, List.flatMap_map]
  | domain t | array t | range t =>
    obtain ⟨d, nullable⟩ := t
    simp [types, parts]
  | unknown | base _ | enum _ => rfl

namespace TypeDescriptor

theorem types_eq (d : TypeDescriptor) : d.types = d :: d.kind.types := by
  cases d
  rw [types]

theorem self_mem_types (d : TypeDescriptor) : d ∈ d.types := by
  rw [types_eq]
  exact List.mem_cons_self

/-- The types of a part are among the types of the whole. -/
theorem types_subset {d : TypeDescriptor} {t : TypeRef} (h : t ∈ d.kind.parts) :
    t.descriptor.types ⊆ d.types := by
  intro part hpart
  rw [d.types_eq, TypeKind.types_eq]
  exact List.mem_cons_of_mem d (List.mem_flatMap.mpr ⟨t, h, hpart⟩)

end TypeDescriptor
end TypedSql

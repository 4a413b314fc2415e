import Mathlib.Logic.Basic
import WireSchema.Schema.Renaming

/-! # Parts of schemas

Induction over schemas, and the list of all schemas that a schema is made of. The parts outside the
targets of codecs are those that applying renames looks into (`parts false`); conversions may carry
values through all of them (`parts true`). -/

namespace WireSchema.Schema

/-! ## (1) Induction -/

/-- Induction over schemas: what holds of all types inside a struct, a tuple or a codec holds of
it. -/
@[elab_as_elim]
theorem induction {motive : Schema → Prop}
    (leaf : ∀ kind, motive (.leaf kind))
    (struct : ∀ fields index, (∀ field ∈ fields, motive field.type) →
      (∀ signature ∈ index, motive signature.value) → motive (.struct fields index))
    (tuple : ∀ elements rest isReadonly, (∀ element ∈ elements, motive element.type) →
      (∀ type ∈ rest, motive type) → motive (.tuple elements rest isReadonly))
    (codec : ∀ source target conversion, motive source → motive target →
      motive (.codec source target conversion))
    (schema : Schema) : motive schema :=
  @Schema.rec motive
    (fun fields => ∀ field ∈ fields, motive field.type)
    (fun index => ∀ signature ∈ index, motive signature.value)
    (fun elements => ∀ element ∈ elements, motive element.type)
    (fun rest => ∀ type ∈ rest, motive type)
    (fun field => motive field.type)
    (fun signature => motive signature.value)
    (fun element => motive element.type)
    leaf struct tuple codec
    (by simp)
    (fun _ _ head tail => List.forall_mem_cons.mpr ⟨head, tail⟩)
    (by simp)
    (fun _ inner => by simpa using inner)
    (by simp)
    (fun _ _ head tail => List.forall_mem_cons.mpr ⟨head, tail⟩)
    (by simp)
    (fun _ inner => by simpa using inner)
    (fun _ _ _ _ _ _ inner => inner)
    (fun _ _ _ inner => inner)
    (fun _ _ inner => inner)
    schema

/-! ## (2) Parts -/

mutual

/-- **The parts of a schema**, each before the parts inside it: fields in declaration order before
the index type, elements before the rest type. The targets of codecs are entered only on demand. -/
def parts (entersTargets : Bool) : Schema → List Schema
  | .leaf kind => [.leaf kind]
  | .struct fields index =>
      .struct fields index ::
        (partsOfFields entersTargets fields ++ partsOfIndex entersTargets index)
  | .tuple elements rest isReadonly =>
      .tuple elements rest isReadonly ::
        (partsOfElements entersTargets elements ++ partsOfRest entersTargets rest)
  | .codec source target conversion =>
      .codec source target conversion ::
        (parts entersTargets source ++ if entersTargets then parts entersTargets target else [])

/-- The parts of the types of fields. -/
def partsOfFields (entersTargets : Bool) : List (Field Schema) → List Schema
  | [] => []
  | field :: rest => parts entersTargets field.type ++ partsOfFields entersTargets rest

/-- The parts of an index type. -/
def partsOfIndex (entersTargets : Bool) : Option (IndexSignature Schema) → List Schema
  | none => []
  | some index => parts entersTargets index.value

/-- The parts of the types of elements. -/
def partsOfElements (entersTargets : Bool) : List (Element Schema) → List Schema
  | [] => []
  | element :: rest => parts entersTargets element.type ++ partsOfElements entersTargets rest

/-- The parts of a rest type. -/
def partsOfRest (entersTargets : Bool) : Option Schema → List Schema
  | none => []
  | some rest => parts entersTargets rest

end

variable {entersTargets : Bool}

/-- A schema is a part of itself. -/
theorem mem_parts_self (schema : Schema) : schema ∈ schema.parts entersTargets := by
  cases schema <;> simp [parts]

/-- The parts of fields are those of their types. -/
theorem mem_partsOfFields {part : Schema} {fields : List (Field Schema)} :
    part ∈ partsOfFields entersTargets fields ↔
      ∃ field ∈ fields, part ∈ field.type.parts entersTargets := by
  induction fields with
  | nil => simp [partsOfFields]
  | cons field rest induction => simp [partsOfFields, induction]

/-- The parts of elements are those of their types. -/
theorem mem_partsOfElements {part : Schema} {elements : List (Element Schema)} :
    part ∈ partsOfElements entersTargets elements ↔
      ∃ element ∈ elements, part ∈ element.type.parts entersTargets := by
  induction elements with
  | nil => simp [partsOfElements]
  | cons element rest induction => simp [partsOfElements, induction]

/-- The parts of a struct are itself and those of the types inside. -/
theorem mem_parts_struct {part : Schema} {fields : List (Field Schema)}
    {index : Option (IndexSignature Schema)} :
    part ∈ (Schema.struct fields index).parts entersTargets ↔
      part = .struct fields index ∨ (∃ field ∈ fields, part ∈ field.type.parts entersTargets) ∨
        ∃ signature ∈ index, part ∈ signature.value.parts entersTargets := by
  rw [parts, List.mem_cons, List.mem_append, mem_partsOfFields]
  cases index <;> simp [partsOfIndex]

/-- The parts of a tuple are itself and those of the types inside. -/
theorem mem_parts_tuple {part : Schema} {elements : List (Element Schema)} {rest : Option Schema}
    {isReadonly : Bool} :
    part ∈ (Schema.tuple elements rest isReadonly).parts entersTargets ↔
      part = .tuple elements rest isReadonly ∨
        (∃ element ∈ elements, part ∈ element.type.parts entersTargets) ∨
        ∃ type ∈ rest, part ∈ type.parts entersTargets := by
  rw [parts, List.mem_cons, List.mem_append, mem_partsOfElements]
  cases rest <;> simp [partsOfRest]

/-- The parts of the type of a field are parts of the struct. -/
theorem mem_parts_of_field {part : Schema} {fields : List (Field Schema)}
    {index : Option (IndexSignature Schema)} {field : Field Schema} (held : field ∈ fields)
    (inner : part ∈ field.type.parts entersTargets) :
    part ∈ (Schema.struct fields index).parts entersTargets :=
  mem_parts_struct.mpr (Or.inr (Or.inl ⟨field, held, inner⟩))

/-- The parts of the index type are parts of the struct. -/
theorem mem_parts_of_index {part : Schema} {fields : List (Field Schema)}
    {index : Option (IndexSignature Schema)} {signature : IndexSignature Schema}
    (held : signature ∈ index) (inner : part ∈ signature.value.parts entersTargets) :
    part ∈ (Schema.struct fields index).parts entersTargets :=
  mem_parts_struct.mpr (Or.inr (Or.inr ⟨signature, held, inner⟩))

/-- The parts of the type of an element are parts of the tuple. -/
theorem mem_parts_of_element {part : Schema} {elements : List (Element Schema)}
    {rest : Option Schema} {isReadonly : Bool} {element : Element Schema}
    (held : element ∈ elements) (inner : part ∈ element.type.parts entersTargets) :
    part ∈ (Schema.tuple elements rest isReadonly).parts entersTargets :=
  mem_parts_tuple.mpr (Or.inr (Or.inl ⟨element, held, inner⟩))

/-- The parts of the rest type are parts of the tuple. -/
theorem mem_parts_of_rest {part : Schema} {elements : List (Element Schema)} {rest : Option Schema}
    {isReadonly : Bool} {type : Schema} (held : type ∈ rest)
    (inner : part ∈ type.parts entersTargets) :
    part ∈ (Schema.tuple elements rest isReadonly).parts entersTargets :=
  mem_parts_tuple.mpr (Or.inr (Or.inr ⟨type, held, inner⟩))

/-- The parts of the source are parts of the codec. -/
theorem mem_parts_of_source {part source target : Schema} {conversion : Conversion}
    (inner : part ∈ source.parts entersTargets) :
    part ∈ (Schema.codec source target conversion).parts entersTargets := by
  simp [parts, inner]

/-- The parts of the target are parts of the codec, where targets are entered. -/
theorem mem_parts_of_target {part source target : Schema} {conversion : Conversion}
    (inner : part ∈ target.parts true) :
    part ∈ (Schema.codec source target conversion).parts true := by
  simp [parts, inner]

/-! ## (3) Kinds of schemas -/

/-- No struct has two fields of one name. -/
def HasDistinctNames (schema : Schema) : Prop :=
  ∀ fields index, .struct fields index ∈ schema.parts true → (fields.map Field.name).Nodup

/-- Names are distinct exactly if no struct among the parts repeats one. -/
theorem hasDistinctNames_iff (schema : Schema) :
    schema.HasDistinctNames ↔
      ∀ part ∈ schema.parts true, ∀ fields ∈ part.fields?, (fields.map Field.name).Nodup := by
  -- only structs have fields
  constructor
  · intro distinct part held fields isStruct
    cases part with
    | struct inner index =>
        cases isStruct
        exact distinct _ _ held
    | _ => cases isStruct
  · intro distinct fields index held
    exact distinct _ held fields rfl

instance (schema : Schema) : Decidable schema.HasDistinctNames :=
  decidable_of_iff _ (hasDistinctNames_iff schema).symm

/-- No conversion of a codec renames keys. -/
def KeepsKeys (schema : Schema) : Prop :=
  ∀ source target conversion, .codec source target conversion ∈ schema.parts true →
    ∀ key side, conversion.keyOn? key side = none

/-- Names that are distinct in a schema are so in its parts. -/
theorem HasDistinctNames.mono {schema inner : Schema} (distinct : schema.HasDistinctNames)
    (inside : ∀ part, part ∈ inner.parts true → part ∈ schema.parts true) :
    inner.HasDistinctNames :=
  fun fields index held => distinct fields index (inside _ held)

/-- A schema that keeps the keys keeps them in its parts. -/
theorem KeepsKeys.mono {schema inner : Schema} (plain : schema.KeepsKeys)
    (inside : ∀ part, part ∈ inner.parts true → part ∈ schema.parts true) : inner.KeepsKeys :=
  fun source target conversion held => plain source target conversion (inside _ held)

end WireSchema.Schema

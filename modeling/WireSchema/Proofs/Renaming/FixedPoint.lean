import WireSchema.Proofs.Renaming.Applied

/-! # Schemas without renames

Applying renames leaves none behind, and it changes no schema that has none: applied once, renames
are applied for good. The targets of codecs are not looked into, so that what they hold does not
count. -/

namespace WireSchema.Schema

/-! ## (1) Schemas without renames -/

/-- **No field is renamed** outside the targets of codecs. -/
def IsRenameFree (schema : Schema) : Prop :=
  ∀ fields index, .struct fields index ∈ schema.parts false → ∀ field ∈ fields, field.rename = none

section IsRenameFree

variable {fields : List (Field Schema)} {index : Option (IndexSignature Schema)}
  {elements : List (Element Schema)} {rest : Option Schema} {isReadonly : Bool}
  {source target : Schema} {conversion : Conversion}

/-- What is free of renames is so in its parts. -/
theorem IsRenameFree.mono {schema inner : Schema} (free : schema.IsRenameFree)
    (inside : ∀ part, part ∈ inner.parts false → part ∈ schema.parts false) :
    inner.IsRenameFree :=
  fun fields index held => free fields index (inside _ held)

/-- A leaf is free of renames. -/
@[simp] theorem isRenameFree_leaf (kind : LeafType) : (Schema.leaf kind).IsRenameFree := by
  intro fields index held
  simp [parts] at held

/-- A struct is free of renames exactly if no field has one and the types inside are free of them.
-/
theorem isRenameFree_struct :
    (Schema.struct fields index).IsRenameFree ↔
      (∀ field ∈ fields, field.rename = none) ∧ (∀ field ∈ fields, field.type.IsRenameFree) ∧
        ∀ signature ∈ index, signature.value.IsRenameFree := by
  constructor
  · intro free
    exact ⟨free fields index (mem_parts_self _),
      fun field held => free.mono fun _ => mem_parts_of_field held,
      fun signature held => free.mono fun _ => mem_parts_of_index held⟩
  · rintro ⟨unnamed, types, indexType⟩ others otherIndex held
    rcases mem_parts_struct.mp held with
      same | ⟨field, fieldHeld, inner⟩ | ⟨signature, isOpen, inner⟩
    · cases same
      exact unnamed
    · exact types field fieldHeld others otherIndex inner
    · exact indexType signature isOpen others otherIndex inner

/-- A tuple is free of renames exactly if its elements and its rest are. -/
theorem isRenameFree_tuple :
    (Schema.tuple elements rest isReadonly).IsRenameFree ↔
      (∀ element ∈ elements, element.type.IsRenameFree) ∧ ∀ type ∈ rest, type.IsRenameFree := by
  constructor
  · intro free
    exact ⟨fun element held => free.mono fun _ => mem_parts_of_element held,
      fun type held => free.mono fun _ => mem_parts_of_rest held⟩
  · rintro ⟨types, restType⟩ fields index held
    rcases mem_parts_tuple.mp held with same | ⟨element, elementHeld, inner⟩ | ⟨type, isRest, inner⟩
    · cases same
    · exact types element elementHeld fields index inner
    · exact restType type isRest fields index inner

/-- A codec is free of renames exactly if its source is: its target is never renamed. -/
theorem isRenameFree_codec :
    (Schema.codec source target conversion).IsRenameFree ↔ source.IsRenameFree := by
  simp [IsRenameFree, parts]

end IsRenameFree

/-! ## (2) Nothing to apply -/

section Inside

variable {fields : List (Field Schema)} {index : Option (IndexSignature Schema)}
  {elements : List (Element Schema)} {rest : Option Schema}

/-- Fields stay the same if each of their types does. -/
theorem applyRenamesFields_eq_self
    (each : ∀ field ∈ fields, field.type.applyRenames = .ok field.type) :
    applyRenamesFields fields = .ok fields := by
  induction fields with
  | nil => rfl
  | cons field rest induction =>
      rw [List.forall_mem_cons] at each
      rw [applyRenamesFields, each.1, induction each.2]
      rfl

/-- An index signature stays the same if its value does. -/
theorem applyRenamesIndex_eq_self
    (each : ∀ signature ∈ index, signature.value.applyRenames = .ok signature.value) :
    applyRenamesIndex index = .ok index := by
  cases index with
  | none => rfl
  | some signature =>
      rw [applyRenamesIndex, each signature rfl]
      rfl

/-- Elements stay the same if each of their types does. -/
theorem applyRenamesElements_eq_self
    (each : ∀ element ∈ elements, element.type.applyRenames = .ok element.type) :
    applyRenamesElements elements = .ok elements := by
  induction elements with
  | nil => rfl
  | cons element rest induction =>
      rw [List.forall_mem_cons] at each
      rw [applyRenamesElements, each.1, induction each.2]
      rfl

/-- A rest stays the same if its type does. -/
theorem applyRenamesRest_eq_self (each : ∀ type ∈ rest, type.applyRenames = .ok type) :
    applyRenamesRest rest = .ok rest := by
  cases rest with
  | none => rfl
  | some type =>
      rw [applyRenamesRest, each type rfl]
      rfl

end Inside

/-- **Where there are no renames**, applying them changes nothing. -/
theorem applyRenames_of_isRenameFree {schema : Schema} (free : schema.IsRenameFree) :
    schema.applyRenames = .ok schema := by
  induction schema using Schema.induction with
  | leaf kind => rfl
  | struct fields index fieldsInduction indexInduction =>
      obtain ⟨unnamed, types, indexType⟩ := isRenameFree_struct.mp free
      have plain : (Renames.ofFields fields).isEmpty = true :=
        (Renames.isEmpty_ofFields_iff fields).mpr unnamed
      have sameFields : applyRenamesFields fields = .ok fields :=
        applyRenamesFields_eq_self fun field held => fieldsInduction field held (types field held)
      have sameIndex : applyRenamesIndex index = .ok index :=
        applyRenamesIndex_eq_self fun signature held =>
          indexInduction signature held (indexType signature held)
      simp only [applyRenames, plain, if_true, sameFields, sameIndex]
      rfl
  | tuple elements rest isReadonly elementsInduction restInduction =>
      obtain ⟨types, restType⟩ := isRenameFree_tuple.mp free
      have sameElements : applyRenamesElements elements = .ok elements :=
        applyRenamesElements_eq_self fun element held =>
          elementsInduction element held (types element held)
      have sameRest : applyRenamesRest rest = .ok rest :=
        applyRenamesRest_eq_self fun type held => restInduction type held (restType type held)
      rw [applyRenames, sameElements, sameRest]
      rfl
  | codec source target conversion sourceInduction _ =>
      rw [applyRenames, sourceInduction (isRenameFree_codec.mp free)]
      rfl

/-! ## (3) Nothing left -/

/-- The codec of a renamed struct has no renames: its source names the fields by their encoded names
and leaves their types open, and its target is not looked into. -/
theorem isRenameFree_renameCodec (renames : Renames) (fields : List (Field Schema))
    (index : Option (IndexSignature Schema)) : (renameCodec renames fields index).IsRenameFree := by
  rw [renameCodec, isRenameFree_codec, isRenameFree_struct]
  refine ⟨?_, ?_, ?_⟩
  · exact List.forall_mem_map.mpr fun field _ => rfl
  · exact List.forall_mem_map.mpr fun field _ => isRenameFree_leaf .unknown
  · intro signature held
    obtain ⟨_, _, rfl⟩ := Option.map_eq_some_iff.mp held
    exact isRenameFree_leaf .unknown

/-- **Applied renames are gone.** -/
theorem isRenameFree_of_applyRenames {schema applied : Schema}
    (applies : schema.applyRenames = .ok applied) : applied.IsRenameFree := by
  induction schema using Schema.induction generalizing applied with
  | leaf kind =>
      cases applies
      exact isRenameFree_leaf kind
  | struct fields index fieldsInduction indexInduction =>
      obtain ⟨eachField, eachIndex, _, rfl⟩ := applyRenames_struct_eq_ok applies
      rw [renamedStruct]
      -- without renames the struct stays one, with renames it becomes a codec of fields without any
      by_cases plain : (Renames.ofFields fields).isEmpty = true
      · have unnamed := (Renames.isEmpty_ofFields_iff fields).mp plain
        rw [if_pos plain, isRenameFree_struct]
        refine ⟨?_, ?_, ?_⟩
        · exact List.forall_mem_map.mpr fun field held => unnamed field held
        · exact List.forall_mem_map.mpr fun field held =>
            fieldsInduction field held (eachField field held)
        · intro signature held
          obtain ⟨origin, isOpen, rfl⟩ := Option.map_eq_some_iff.mp held
          exact indexInduction origin isOpen (eachIndex origin isOpen)
      · rw [if_neg plain]
        exact isRenameFree_renameCodec _ _ _
  | tuple elements rest isReadonly elementsInduction restInduction =>
      obtain ⟨eachElement, eachRest, rfl⟩ := applyRenames_tuple_eq_ok applies
      rw [isRenameFree_tuple]
      refine ⟨?_, ?_⟩
      · exact List.forall_mem_map.mpr fun element held =>
          elementsInduction element held (eachElement element held)
      · intro type held
        obtain ⟨origin, isRest, rfl⟩ := Option.map_eq_some_iff.mp held
        exact restInduction origin isRest (eachRest origin isRest)
  | codec source target conversion sourceInduction _ =>
      obtain ⟨appliesSource, rfl⟩ := applyRenames_codec_eq_ok applies
      exact isRenameFree_codec.mpr (sourceInduction appliesSource)

/-! ## (4) The fixed point -/

/-- **Renames are applied once**: a schema is left as it is exactly when no field outside the
targets of codecs is renamed, and what comes out has no such field and is left as it is. -/
theorem applyRenames_eq_self_iff (schema : Schema) :
    (schema.applyRenames = .ok schema ↔ schema.IsRenameFree) ∧
      ∀ applied, schema.applyRenames = .ok applied →
        applied.IsRenameFree ∧ applied.applyRenames = .ok applied := by
  refine ⟨⟨isRenameFree_of_applyRenames, applyRenames_of_isRenameFree⟩, fun applied applies => ?_⟩
  have free := isRenameFree_of_applyRenames applies
  exact ⟨free, applyRenames_of_isRenameFree free⟩

/-- An order with renames at three depths: in an index type, in the source of a codec, and in its
target, where the rename stays. -/
theorem applyRenames_eq_self_order :
    let item : Schema := .struct [⟨"code", .leaf .number, true, true, some "c", []⟩] none
    let order : Schema := .struct
      [⟨"total", .codec item item .timestampText, false, false, none, [("unit", .null)]⟩]
      (some ⟨.string, .tuple [⟨item, true⟩] (some item) true, true⟩)
    order.applyRenames = .ok order.renamed ∧ order.renamed.IsRenameFree ∧
      order.renamed.applyRenames = .ok order.renamed := by
  intro item order
  have applies : order.applyRenames = .ok order.renamed := rfl
  exact ⟨applies, (applyRenames_eq_self_iff order).2 order.renamed applies⟩

end WireSchema.Schema

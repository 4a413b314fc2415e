import WireSchema.Proofs.Renaming.Codec

/-! # The shape of renamed schemas

Applying renames adds codecs and changes nothing else. Where each codec that renames keys gives way
to its target, the schema is what it was without its renames (`decodedShape_of_applyRenames`); and
each of these codecs stands where a struct with renames has stood, with that struct's fields under
their encoded names as its source and with the pairs of their names as its key map. -/

namespace WireSchema.Schema

/-! ## (1) Rebuilt schemas -/

/-- What is changed about a schema that is otherwise built as it was. -/
structure Rebuilding where
  /-- What becomes of the rename that a field declares. -/
  rename : Option String → Option String
  /-- Whether a codec with the conversion gives way to its target. -/
  opens : Conversion → Bool

mutual

/-- A schema built again, with the targets of codecs left as they are. -/
def rebuilt (change : Rebuilding) : Schema → Schema
  | .leaf kind => .leaf kind
  | .struct fields index => .struct (rebuiltFields change fields) (rebuiltIndex change index)
  | .tuple elements rest isReadonly =>
      .tuple (rebuiltElements change elements) (rebuiltRest change rest) isReadonly
  | .codec source target conversion =>
      if change.opens conversion then rebuilt change target
      else .codec (rebuilt change source) target conversion

/-- The fields of a struct that is built again. -/
def rebuiltFields (change : Rebuilding) : List (Field Schema) → List (Field Schema)
  | [] => []
  | field :: rest =>
      { field with type := rebuilt change field.type, rename := change.rename field.rename } ::
        rebuiltFields change rest

/-- The index signature of a struct that is built again. -/
def rebuiltIndex (change : Rebuilding) :
    Option (IndexSignature Schema) → Option (IndexSignature Schema)
  | none => none
  | some index => some { index with value := rebuilt change index.value }

/-- The elements of a tuple that is built again. -/
def rebuiltElements (change : Rebuilding) : List (Element Schema) → List (Element Schema)
  | [] => []
  | element :: rest =>
      { element with type := rebuilt change element.type } :: rebuiltElements change rest

/-- The rest type of a tuple that is built again. -/
def rebuiltRest (change : Rebuilding) : Option Schema → Option Schema
  | none => none
  | some rest => some (rebuilt change rest)

end

/-- Whether a conversion renames the keys of objects by a key map. -/
def mapsKeys : Conversion → Bool
  | .keys _ => true
  | _ => false

/-- **The decoded shape** of a schema: every codec that renames keys gives way to its target, in the
types of fields, index signatures, elements and rests and in the sources of all other codecs. -/
def decodedShape : Schema → Schema := rebuilt ⟨id, mapsKeys⟩

/-- **A schema without its renames**, those in the targets of codecs apart. -/
def withoutRenames : Schema → Schema := rebuilt ⟨fun _ => none, fun _ => false⟩

section Rebuilt

variable (change : Rebuilding)

/-- Fields are built again one by one. -/
theorem rebuiltFields_eq_map (fields : List (Field Schema)) :
    rebuiltFields change fields = fields.map fun field =>
      { field with type := field.type.rebuilt change, rename := change.rename field.rename } := by
  induction fields with
  | nil => rfl
  | cons field rest induction => rw [rebuiltFields, induction, List.map_cons]

/-- An index signature is built again with its value. -/
theorem rebuiltIndex_eq_map (index : Option (IndexSignature Schema)) :
    rebuiltIndex change index = index.map fun signature =>
      { signature with value := signature.value.rebuilt change } := by
  cases index <;> rfl

/-- Elements are built again one by one. -/
theorem rebuiltElements_eq_map (elements : List (Element Schema)) :
    rebuiltElements change elements = elements.map fun element =>
      { element with type := element.type.rebuilt change } := by
  induction elements with
  | nil => rfl
  | cons element rest induction => rw [rebuiltElements, induction, List.map_cons]

/-- A rest is built again where there is one. -/
theorem rebuiltRest_eq_map (rest : Option Schema) :
    rebuiltRest change rest = rest.map (rebuilt change) := by
  cases rest <;> rfl

end Rebuilt

/-- The decoded shape of a struct has the decoded shapes of its types. -/
theorem decodedShape_struct (fields : List (Field Schema))
    (index : Option (IndexSignature Schema)) :
    (Schema.struct fields index).decodedShape =
      .struct (fields.map fun field => { field with type := field.type.decodedShape })
        (index.map fun signature => { signature with value := signature.value.decodedShape }) := by
  rw [decodedShape, rebuilt, rebuiltFields_eq_map, rebuiltIndex_eq_map]
  rfl

/-- A struct loses the renames of its fields and those inside their types. -/
theorem withoutRenames_struct (fields : List (Field Schema))
    (index : Option (IndexSignature Schema)) :
    (Schema.struct fields index).withoutRenames =
      .struct
        (fields.map fun field => { field with type := field.type.withoutRenames, rename := none })
        (index.map fun signature =>
          { signature with value := signature.value.withoutRenames }) := by
  rw [withoutRenames, rebuilt, rebuiltFields_eq_map, rebuiltIndex_eq_map]

/-- The decoded shape of a tuple has the decoded shapes of its types. -/
theorem decodedShape_tuple (elements : List (Element Schema)) (rest : Option Schema)
    (isReadonly : Bool) :
    (Schema.tuple elements rest isReadonly).decodedShape =
      .tuple (elements.map fun element => { element with type := element.type.decodedShape })
        (rest.map decodedShape) isReadonly := by
  rw [decodedShape, rebuilt, rebuiltElements_eq_map, rebuiltRest_eq_map]

/-- A tuple loses the renames inside its types. -/
theorem withoutRenames_tuple (elements : List (Element Schema)) (rest : Option Schema)
    (isReadonly : Bool) :
    (Schema.tuple elements rest isReadonly).withoutRenames =
      .tuple (elements.map fun element => { element with type := element.type.withoutRenames })
        (rest.map withoutRenames) isReadonly := by
  rw [withoutRenames, rebuilt, rebuiltElements_eq_map, rebuiltRest_eq_map]

/-- A codec that renames keys gives way to its target. -/
theorem decodedShape_keys (source target : Schema) (map : KeyMap) :
    (Schema.codec source target (.keys map)).decodedShape = target.decodedShape := by
  rw [decodedShape, rebuilt]
  exact if_pos rfl

/-- Any other codec stays, and its source gets its decoded shape. -/
theorem decodedShape_codec {conversion : Conversion} (keeps : mapsKeys conversion = false)
    (source target : Schema) :
    (Schema.codec source target conversion).decodedShape =
      .codec source.decodedShape target conversion := by
  rw [decodedShape, rebuilt]
  exact if_neg (by simp [keeps])

/-- A codec loses the renames of its source; its target keeps those it has. -/
theorem withoutRenames_codec (source target : Schema) (conversion : Conversion) :
    (Schema.codec source target conversion).withoutRenames =
      .codec source.withoutRenames target conversion := by
  rw [withoutRenames, rebuilt]
  rfl

/-! ## (2) Key maps -/

/-- No codec renames keys by a key map. -/
def HasNoKeyMaps (schema : Schema) : Prop :=
  ∀ source target map, .codec source target (.keys map) ∉ schema.parts true

/-- A schema without key maps has none in its parts. -/
theorem HasNoKeyMaps.mono {schema inner : Schema} (unkeyed : schema.HasNoKeyMaps)
    (inside : ∀ part, part ∈ inner.parts true → part ∈ schema.parts true) : inner.HasNoKeyMaps :=
  fun source target map held => unkeyed source target map (inside _ held)

/-- In a schema without key maps a codec at the top has another conversion. -/
theorem HasNoKeyMaps.mapsKeys_eq_false {source target : Schema} {conversion : Conversion}
    (unkeyed : (Schema.codec source target conversion).HasNoKeyMaps) :
    mapsKeys conversion = false := by
  cases conversion with
  | keys map => exact absurd (mem_parts_self _) (unkeyed source target map)
  | _ => rfl

/-- A schema on its decoded side: in place of a codec that renames keys, its target. -/
def behindKeys : Schema → Schema
  | .codec _ target (.keys _) => target
  | schema => schema

/-- A codec that keeps the keys stands in front of nothing else. -/
theorem behindKeys_codec {conversion : Conversion} (keeps : mapsKeys conversion = false)
    (source target : Schema) :
    (Schema.codec source target conversion).behindKeys = .codec source target conversion := by
  cases conversion with
  | keys map => cases keeps
  | _ => rfl

/-- A renaming of keys has the decoded shape of what stands behind it. -/
theorem decodedShape_behindKeys (schema : Schema) :
    schema.behindKeys.decodedShape = schema.decodedShape := by
  cases schema with
  | codec source target conversion =>
      cases conversion with
      | keys map => exact (decodedShape_keys source target map).symm
      | _ => rfl
  | _ => rfl

/-- A struct with its renames applied has its fields on the decoded side, without their renames. -/
theorem behindKeys_renamedStruct (fields : List (Field Schema))
    (index : Option (IndexSignature Schema)) :
    (renamedStruct fields index).behindKeys =
      .struct (fields.map fun field => { field with type := field.type.renamed, rename := none })
        (index.map renamedIndex) := by
  rw [renamedStruct]
  split
  · rename_i plain
    have unnamed := (Renames.isEmpty_ofFields_iff fields).mp plain
    refine congrArg₂ Schema.struct (List.map_congr_left fun field held => ?_) rfl
    rw [renamedField, ← unnamed field held]
  · rw [renameCodec, behindKeys, List.map_map]
    rfl

/-- **The decoded shape is kept**: where the codecs that applying renames has put in give way to
their targets, the schema is what it was without its renames. -/
theorem decodedShape_of_applyRenames {schema applied : Schema} (unkeyed : schema.HasNoKeyMaps)
    (applies : schema.applyRenames = .ok applied) :
    applied.decodedShape = schema.withoutRenames := by
  induction schema using Schema.induction generalizing applied with
  | leaf kind =>
      cases applies
      rfl
  | struct fields index fieldsInduction indexInduction =>
      obtain ⟨eachField, eachIndex, _, rfl⟩ := applyRenames_struct_eq_ok applies
      rw [← decodedShape_behindKeys, behindKeys_renamedStruct, decodedShape_struct,
        withoutRenames_struct, List.map_map, Option.map_map]
      refine congrArg₂ Schema.struct (List.map_congr_left fun field held => ?_)
        (Option.map_congr fun signature held => ?_)
      · rw [Function.comp_apply, fieldsInduction field held
          (unkeyed.mono fun _ => mem_parts_of_field held) (eachField field held)]
      · rw [Function.comp_apply, renamedIndex, indexInduction signature held
          (unkeyed.mono fun _ => mem_parts_of_index held) (eachIndex signature held)]
  | tuple elements rest isReadonly elementsInduction restInduction =>
      obtain ⟨eachElement, eachRest, rfl⟩ := applyRenames_tuple_eq_ok applies
      rw [decodedShape_tuple, withoutRenames_tuple, List.map_map, Option.map_map]
      refine congrArg₂ (Schema.tuple · · isReadonly) (List.map_congr_left fun element held => ?_)
        (Option.map_congr fun type held => ?_)
      · rw [Function.comp_apply, renamedElement, elementsInduction element held
          (unkeyed.mono fun _ => mem_parts_of_element held) (eachElement element held)]
      · exact restInduction type held (unkeyed.mono fun _ => mem_parts_of_rest held)
          (eachRest type held)
  | codec source target conversion sourceInduction _ =>
      obtain ⟨appliesSource, rfl⟩ := applyRenames_codec_eq_ok applies
      -- a codec without a key map keeps its target on both sides of the equation
      rw [decodedShape_codec unkeyed.mapsKeys_eq_false, withoutRenames_codec,
        sourceInduction (unkeyed.mono fun _ => mem_parts_of_source) appliesSource]

/-! ## (3) Places -/

/-- A step into a schema. -/
inductive Step where
  /-- Into the type of the field at a position. -/
  | field (position : Nat)
  /-- Into the index type. -/
  | index
  /-- Into the type of the element at a position. -/
  | element (position : Nat)
  /-- Into the rest type. -/
  | rest
  /-- Into the source of a codec. -/
  | source

/-- What a step into a schema leads to. -/
def child? : Schema → Step → Option Schema
  | .struct fields _, .field position => fields[position]?.map Field.type
  | .struct _ index, .index => index.map IndexSignature.value
  | .tuple elements _ _, .element position => elements[position]?.map Element.type
  | .tuple _ rest _, .rest => rest
  | .codec source _ _, .source => some source
  | _, _ => none

/-- **What stands at a place** in a schema, given by the steps that lead there; behind a codec that
renames keys they go on in its target. -/
def at? (schema : Schema) : List Step → Option Schema
  | [] => some schema
  | step :: steps => (schema.behindKeys.child? step).bind fun inner => inner.at? steps

/-- What a step leads to has its renames applied wherever the whole schema has. -/
theorem child?_of_applyRenames {schema applied : Schema} (unkeyed : schema.HasNoKeyMaps)
    (applies : schema.applyRenames = .ok applied) (step : Step) :
    applied.behindKeys.child? step = (schema.behindKeys.child? step).map renamed ∧
      ∀ inner ∈ schema.behindKeys.child? step,
        inner.HasNoKeyMaps ∧ inner.applyRenames = .ok inner.renamed := by
  cases schema with
  | leaf kind =>
      cases applies
      exact ⟨by cases step <;> rfl, fun inner leads => by cases step <;> cases leads⟩
  | struct fields index =>
      obtain ⟨eachField, eachIndex, _, rfl⟩ := applyRenames_struct_eq_ok applies
      -- the codec of a struct has the renamed types on its decoded side
      rw [behindKeys_renamedStruct]
      cases step with
      | field position =>
          refine ⟨by simp [child?, behindKeys, Function.comp_def], fun inner leads => ?_⟩
          obtain ⟨field, found, rfl⟩ := Option.map_eq_some_iff.mp leads
          have held := List.mem_of_getElem? found
          exact ⟨unkeyed.mono fun _ => mem_parts_of_field held, eachField field held⟩
      | index =>
          refine ⟨by simp [child?, behindKeys, Function.comp_def, renamedIndex],
            fun inner leads => ?_⟩
          obtain ⟨signature, held, rfl⟩ := Option.map_eq_some_iff.mp leads
          exact ⟨unkeyed.mono fun _ => mem_parts_of_index held, eachIndex signature held⟩
      | _ => exact ⟨rfl, fun inner leads => by cases leads⟩
  | tuple elements rest isReadonly =>
      obtain ⟨eachElement, eachRest, rfl⟩ := applyRenames_tuple_eq_ok applies
      cases step with
      | element position =>
          refine ⟨by simp [child?, behindKeys, Function.comp_def, renamedElement],
            fun inner leads => ?_⟩
          obtain ⟨element, found, rfl⟩ := Option.map_eq_some_iff.mp leads
          have held := List.mem_of_getElem? found
          exact ⟨unkeyed.mono fun _ => mem_parts_of_element held, eachElement element held⟩
      | rest =>
          exact ⟨rfl, fun inner held =>
            ⟨unkeyed.mono fun _ => mem_parts_of_rest held, eachRest inner held⟩⟩
      | _ => exact ⟨rfl, fun inner leads => by cases leads⟩
  | codec source target conversion =>
      obtain ⟨appliesSource, rfl⟩ := applyRenames_codec_eq_ok applies
      -- a codec that stood there before renames no keys, so it is no step past it
      rw [behindKeys_codec unkeyed.mapsKeys_eq_false, behindKeys_codec unkeyed.mapsKeys_eq_false]
      cases step with
      | source =>
          refine ⟨rfl, fun inner leads => ?_⟩
          cases leads
          exact ⟨unkeyed.mono fun _ => mem_parts_of_source, appliesSource⟩
      | _ => exact ⟨rfl, fun inner leads => by cases leads⟩

/-- **Places are kept**: what stands at a place is what stood there, with its renames applied. -/
theorem at?_of_applyRenames {schema applied : Schema} (unkeyed : schema.HasNoKeyMaps)
    (applies : schema.applyRenames = .ok applied) (place : List Step) :
    applied.at? place = (schema.at? place).map renamed ∧
      ∀ part ∈ schema.at? place, part.HasNoKeyMaps ∧ part.applyRenames = .ok part.renamed := by
  induction place generalizing schema applied with
  | nil =>
      refine ⟨congrArg some (renamed_of_applyRenames applies).symm, ?_⟩
      rintro part ⟨⟩
      exact ⟨unkeyed, applyRenames_eq_renamed applies⟩
  | cons step steps induction =>
      obtain ⟨same, inside⟩ := child?_of_applyRenames unkeyed applies step
      rw [at?, at?, same]
      cases leads : schema.behindKeys.child? step with
      | none => exact ⟨rfl, fun part stands => by cases stands⟩
      | some inner =>
          obtain ⟨innerUnkeyed, innerApplies⟩ := inside inner leads
          exact induction innerUnkeyed innerApplies

/-! ## (4) Codecs of structs -/

section KeyCodecs

variable {fields : List (Field Schema)} {index : Option (IndexSignature Schema)}
  {source target : Schema} {map : KeyMap}

/-- Some field has a rename exactly if the renames of the fields are not empty. -/
theorem exists_renamed_iff_not_isEmpty :
    (∃ field ∈ fields, field.rename.isSome) ↔ ¬(Renames.ofFields fields).isEmpty = true := by
  rw [Renames.isEmpty_ofFields_iff, not_forall₂]
  simp only [← Option.isSome_iff_ne_none, exists_prop, ← ne_eq]

/-- A schema without key maps becomes a codec that renames keys only if it is a struct with
renames. -/
theorem exists_struct_of_renamed_eq_keys {schema : Schema} (unkeyed : schema.HasNoKeyMaps)
    (applies : schema.applyRenames = .ok schema.renamed)
    (becomes : schema.renamed = .codec source target (.keys map)) :
    ∃ fields index, schema = .struct fields index ∧ (∃ field ∈ fields, field.rename.isSome) ∧
      source = encodedStruct (Renames.ofFields fields) fields index ∧
      map = KeyMap.ofStruct (Renames.ofFields fields) fields index.isSome := by
  rw [becomes] at applies
  cases schema with
  | leaf kind => cases applies
  | struct fields index =>
      obtain ⟨_, _, _, shape⟩ := applyRenames_struct_eq_ok applies
      rw [renamedStruct] at shape
      split at shape
      · cases shape
      · rename_i isRenamed
        refine ⟨fields, index, rfl, exists_renamed_iff_not_isEmpty.mpr isRenamed, ?_⟩
        cases shape
        rw [encodedStruct, List.map_map, Option.map_map, KeyMap.ofStruct_renamedField,
          Option.isSome_map]
        exact ⟨rfl, rfl⟩
  | tuple elements rest isReadonly =>
      obtain ⟨_, _, shape⟩ := applyRenames_tuple_eq_ok applies
      cases shape
  | codec inner outer conversion =>
      obtain ⟨_, shape⟩ := applyRenames_codec_eq_ok applies
      cases shape
      exact absurd unkeyed.mapsKeys_eq_false (by simp [mapsKeys])

/-- A struct with renames becomes a codec that renames keys. -/
theorem renamedStruct_eq_keys (isRenamed : ∃ field ∈ fields, field.rename.isSome)
    (index : Option (IndexSignature Schema)) :
    ∃ source target map, renamedStruct fields index = .codec source target (.keys map) := by
  rw [renamedStruct, if_neg (exists_renamed_iff_not_isEmpty.mp isRenamed)]
  exact ⟨_, _, _, rfl⟩

/-- The source of the codec of a struct holds no codec. -/
theorem codec_notMem_parts_encodedStruct (renames : Renames) (inner outer : Schema)
    (conversion : Conversion) :
    .codec inner outer conversion ∉ (encodedStruct renames fields index).parts true := by
  intro held
  rcases mem_parts_struct.mp held with same | ⟨field, fieldHeld, below⟩ | ⟨signature, isOpen, below⟩
  · cases same
  · obtain ⟨origin, _, rfl⟩ := List.mem_map.mp fieldHeld
    simp [encodedField, unknown, parts] at below
  · obtain ⟨origin, _, rfl⟩ := Option.map_eq_some_iff.mp isOpen
    simp [encodedIndex, unknown, parts] at below

/-- A codec inside a struct with its renames applied is the codec of this struct, or it is inside
the decoded side. -/
theorem mem_parts_behindKeys {conversion : Conversion}
    (held : .codec source target conversion ∈ (renamedStruct fields index).parts true) :
    renamedStruct fields index = .codec source target conversion ∨
      .codec source target conversion ∈ (renamedStruct fields index).behindKeys.parts true := by
  rw [renamedStruct] at held ⊢
  split
  · rename_i plain
    rw [if_pos plain] at held
    exact Or.inr held
  · rename_i isRenamed
    rw [if_neg isRenamed, renameCodec_eq, parts, if_pos rfl, List.mem_cons, List.mem_append] at held
    rcases held with same | inSource | inTarget
    · exact Or.inl same.symm
    · exact absurd inSource (codec_notMem_parts_encodedStruct _ _ _ _)
    · exact Or.inr inTarget

/-- **Every codec that renames keys stands at a place** that steps lead to. -/
theorem exists_place_of_mem_parts {schema applied : Schema} (unkeyed : schema.HasNoKeyMaps)
    (applies : schema.applyRenames = .ok applied)
    (held : .codec source target (.keys map) ∈ applied.parts true) :
    ∃ place, applied.at? place = some (.codec source target (.keys map)) := by
  induction schema using Schema.induction generalizing applied with
  | leaf kind =>
      cases applies
      simp [parts] at held
  | struct fields index fieldsInduction indexInduction =>
      obtain ⟨eachField, eachIndex, _, rfl⟩ := applyRenames_struct_eq_ok applies
      rcases mem_parts_behindKeys held with here | below
      · exact ⟨[], congrArg some here⟩
      · rw [behindKeys_renamedStruct, mem_parts_struct] at below
        rcases below with same | ⟨_, fieldHeld, below⟩ | ⟨_, isOpen, below⟩
        · cases same
        · obtain ⟨field, origin, rfl⟩ := List.mem_map.mp fieldHeld
          obtain ⟨position, found⟩ := List.getElem?_of_mem origin
          obtain ⟨place, stands⟩ := fieldsInduction field origin
            (unkeyed.mono fun _ => mem_parts_of_field origin) (eachField field origin) below
          refine ⟨.field position :: place, ?_⟩
          rw [at?, behindKeys_renamedStruct, child?, List.getElem?_map, found]
          exact stands
        · obtain ⟨signature, origin, rfl⟩ := Option.map_eq_some_iff.mp isOpen
          obtain ⟨place, stands⟩ := indexInduction signature origin
            (unkeyed.mono fun _ => mem_parts_of_index origin) (eachIndex signature origin) below
          refine ⟨.index :: place, ?_⟩
          rw [at?, behindKeys_renamedStruct, child?, origin]
          exact stands
  | tuple elements rest isReadonly elementsInduction restInduction =>
      obtain ⟨eachElement, eachRest, rfl⟩ := applyRenames_tuple_eq_ok applies
      rcases mem_parts_tuple.mp held with same | ⟨_, elementHeld, below⟩ | ⟨_, isRest, below⟩
      · cases same
      · obtain ⟨element, origin, rfl⟩ := List.mem_map.mp elementHeld
        obtain ⟨position, found⟩ := List.getElem?_of_mem origin
        obtain ⟨place, stands⟩ := elementsInduction element origin
          (unkeyed.mono fun _ => mem_parts_of_element origin) (eachElement element origin) below
        refine ⟨.element position :: place, ?_⟩
        rw [at?, behindKeys.eq_def, child?, List.getElem?_map, found]
        exact stands
      · obtain ⟨type, origin, rfl⟩ := Option.map_eq_some_iff.mp isRest
        obtain ⟨place, stands⟩ := restInduction type origin
          (unkeyed.mono fun _ => mem_parts_of_rest origin) (eachRest type origin) below
        refine ⟨.rest :: place, ?_⟩
        rw [at?, behindKeys.eq_def, child?, origin]
        exact stands
  | codec inner outer conversion sourceInduction _ =>
      obtain ⟨appliesSource, rfl⟩ := applyRenames_codec_eq_ok applies
      rw [parts, if_pos rfl, List.mem_cons, List.mem_append] at held
      rcases held with same | inSource | inTarget
      · cases same
        exact absurd unkeyed.mapsKeys_eq_false (by simp [mapsKeys])
      · obtain ⟨place, stands⟩ := sourceInduction (unkeyed.mono fun _ => mem_parts_of_source)
          appliesSource inSource
        refine ⟨.source :: place, ?_⟩
        rw [at?, behindKeys_codec unkeyed.mapsKeys_eq_false, child?]
        exact stands
      · -- the target is the one that was there before, and it holds no key map
        exact absurd (mem_parts_of_target inTarget) (unkeyed source target map)

end KeyCodecs

/-! ## (5) Both sides -/

/-- **Applying renames keeps the decoded shape and mirrors it on the encoded side.** Where the
codecs that rename keys give way to their targets, the schema is what it was without its renames.
These codecs stand exactly where structs with renames have stood. The source of each lists the
fields of its struct in their order, under their encoded names and with their types left open, and
is open when the struct is; its target gives back the struct; and its key map pairs the names. -/
theorem decodedShape_applyRenames {schema applied : Schema} (unkeyed : schema.HasNoKeyMaps)
    (applies : schema.applyRenames = .ok applied) :
    applied.decodedShape = schema.withoutRenames ∧
    (∀ source target map, .codec source target (.keys map) ∈ applied.parts true →
      ∃ place, applied.at? place = some (.codec source target (.keys map))) ∧
    (∀ place fields index, schema.at? place = some (.struct fields index) →
      (∃ field ∈ fields, field.rename.isSome) →
        ∃ source target map, applied.at? place = some (.codec source target (.keys map))) ∧
    ∀ place source target map, applied.at? place = some (.codec source target (.keys map)) →
      ∃ fields index, schema.at? place = some (.struct fields index) ∧
        (∃ field ∈ fields, field.rename.isSome) ∧
        source = .struct
          (fields.map fun field => ⟨(Renames.ofFields fields).encodedName field.name, .unknown,
            field.isOptional, field.isReadonly, none, field.annotations⟩)
          (index.map fun signature => ⟨signature.key, .unknown, signature.isReadonly⟩) ∧
        target.decodedShape = (Schema.struct fields index).withoutRenames ∧
        map = ⟨fields.map fun field => ⟨field.name,
          (Renames.ofFields fields).encodedName field.name, field.isOptional⟩, index.isSome⟩ := by
  refine ⟨decodedShape_of_applyRenames unkeyed applies,
    fun _ _ _ => exists_place_of_mem_parts unkeyed applies, ?_, ?_⟩
  · intro place fields index stood isRenamed
    -- what stands at a place afterwards is what stood there, renamed
    obtain ⟨same, inside⟩ := at?_of_applyRenames unkeyed applies place
    obtain ⟨_, _, _, shape⟩ := applyRenames_struct_eq_ok (inside _ stood).2
    obtain ⟨source, target, map, becomes⟩ := renamedStruct_eq_keys isRenamed index
    refine ⟨source, target, map, ?_⟩
    rw [same, stood, Option.map_some, shape, becomes]
  · intro place source target map stands
    obtain ⟨same, inside⟩ := at?_of_applyRenames unkeyed applies place
    rw [same] at stands
    obtain ⟨part, stood, becomes⟩ := Option.map_eq_some_iff.mp stands
    obtain ⟨partUnkeyed, partApplies⟩ := inside part stood
    obtain ⟨fields, index, rfl, isRenamed, isSource, isMap⟩ :=
      exists_struct_of_renamed_eq_keys partUnkeyed partApplies becomes
    refine ⟨fields, index, stood, isRenamed, isSource, ?_, isMap⟩
    rw [← decodedShape_of_applyRenames partUnkeyed partApplies, becomes, decodedShape_keys]

/-- An order with renames at two depths, in an open struct and in the source of a codec: its decoded
shape is the order without its renames, and the codec inside stands where its struct has stood, with
the encoded name on its source. -/
theorem decodedShape_applyRenames_order :
    let item : Schema := .struct [⟨"code", .leaf .number, true, true, some "c", []⟩] none
    let order : Schema := .struct
      [⟨"total", .codec item item .timestampText, false, true, none, [("unit", .null)]⟩,
        ⟨"count", .leaf .number, true, false, some "n", []⟩] (some ⟨.string, item, true⟩)
    order.HasNoKeyMaps ∧ order.applyRenames = .ok order.renamed ∧
      order.renamed.decodedShape = order.withoutRenames ∧
      (∃ source target map, order.renamed.at? [.field 0, .source] =
        some (.codec source target (.keys map))) ∧
      (∃ source target map, order.renamed.at? [] = some (.codec source target (.keys map))) ∧
      order.renamed.at? [.field 0, .source] = some (.codec
        (.struct [⟨"c", .unknown, true, true, none, []⟩] none)
        (.struct [⟨"code", .leaf .number, true, true, none, []⟩] none)
        (.keys ⟨[⟨"code", "c", true⟩], false⟩)) := by
  intro item order
  have unkeyed : order.HasNoKeyMaps := by
    intro source target map held
    simp [order, item, parts, partsOfFields, partsOfIndex] at held
  have applies : order.applyRenames = .ok order.renamed := rfl
  obtain ⟨kept, _, stands, _⟩ := decodedShape_applyRenames unkeyed applies
  refine ⟨unkeyed, applies, kept, stands [.field 0, .source] _ _ rfl ?_, stands [] _ _ rfl ?_, rfl⟩
  · exact ⟨_, List.mem_cons_self, rfl⟩
  · exact ⟨_, List.mem_cons_of_mem _ List.mem_cons_self, rfl⟩

end WireSchema.Schema

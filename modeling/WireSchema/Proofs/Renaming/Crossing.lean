import WireSchema.Proofs.Renaming.Codec

/-! # Crossing a renamed struct

Without regard to errors, a struct with its renames applied translates members from the names on the
input side to the names on the other side, in either direction and whether or not it has renames
(`outcome?_renamed_struct`). -/

namespace WireSchema

/-- The way back. -/
def Direction.opposite : Direction → Direction
  | .encode => .decode
  | .decode => .encode

/-- What one direction reads, the opposite one writes. -/
@[simp] theorem Direction.inputSide_opposite (direction : Direction) :
    direction.opposite.inputSide = direction.inputSide.opposite := by
  cases direction <;> rfl

namespace Schema

open Members

section Translations

variable {fields : List (Field Schema)} {index : Option (IndexSignature Schema)}
  {read middle write : String → String} {early late : Field Schema → Value → Option Value}
  {openEarly openLate : IndexSignature Schema → Value → Option Value}
  {members : List (String × Value)}

/-- Members with distinct names have translations with distinct names. -/
theorem map_translate?_ofList (distinct : (fields.map fun field => write field.name).Nodup)
    (unique : (keys members).Nodup) :
    ((translate? (fields.map (fieldRule read write early)) (index.map openEarly) members).map
      fun outputs => Value.object (ofList outputs)) =
      (translate? (fields.map (fieldRule read write early)) (index.map openEarly) members).map
        Value.object := by
  cases translated :
      translate? (fields.map (fieldRule read write early)) (index.map openEarly) members with
  | none => rfl
  | some outputs =>
      have written := nodup_keys_translate? (by rw [writeNames_fieldRule]; exact distinct) unique
        translated
      rw [Option.map_some, Option.map_some, ofList_of_nodup written]

/-- Two translations of an object, one after the other, are one, where the first one does not fail
alone. -/
theorem bind_translate?_fieldRule (middleNames : (fields.map fun field => middle field.name).Nodup)
    (writeNames : (fields.map fun field => write field.name).Nodup) (unique : (keys members).Nodup)
    (firstToo :
      (translate? (fields.map (fieldRule read write (thenPart early late)))
        (index.map (thenPart openEarly openLate)) members).isSome →
      (translate? (fields.map (fieldRule read middle early)) (index.map openEarly)
        members).isSome) :
    ((translate? (fields.map (fieldRule read middle early)) (index.map openEarly) members).bind
      fun outputs => (translate? (fields.map (fieldRule middle write late)) (index.map openLate)
        outputs).map fun outputs => Value.object (ofList outputs)) =
      (translate? (fields.map (fieldRule read write (thenPart early late)))
        (index.map (thenPart openEarly openLate)) members).map Value.object := by
  cases translated :
      translate? (fields.map (fieldRule read middle early)) (index.map openEarly) members with
  | some outputs =>
      rw [Option.bind_some, translate?_fieldRule write late openLate middleNames translated]
      exact map_translate?_ofList writeNames unique
  | none =>
      rw [translated] at firstToo
      cases both : translate? (fields.map (fieldRule read write (thenPart early late)))
          (index.map (thenPart openEarly openLate)) members with
      | none => rfl
      | some outputs =>
          rw [both] at firstToo
          exact absurd (firstToo rfl) Bool.false_ne_true

end Translations

/-! ## Both directions -/

section Crossing

variable {fields : List (Field Schema)} {index : Option (IndexSignature Schema)}
  {members : List (String × Value)}

/-- What the field and index types of a struct make of values once their renames are applied. -/
def renamedPart (direction : Direction) (field : Field Schema) : Value → Option Value :=
  field.type.renamed.outcome? direction

/-- What the index type of a struct makes of values once its renames are applied. -/
def renamedOpenPart (direction : Direction) (signature : IndexSignature Schema) :
    Value → Option Value :=
  signature.value.renamed.outcome? direction

/-- The translation of the members of a struct in a direction. -/
def cross? (direction : Direction) (fields : List (Field Schema))
    (index : Option (IndexSignature Schema)) (members : List (String × Value)) :
    Option (List (String × Value)) :=
  translate? (fields.map (fieldRule ((Renames.ofFields fields).nameOn direction.inputSide)
    ((Renames.ofFields fields).nameOn direction.inputSide.opposite) (renamedPart direction)))
    (index.map (renamedOpenPart direction)) members

/-- The target with the types inside it renamed translates under the names of the fields. -/
theorem structOutcome?_renamed (direction : Direction) :
    structOutcome? direction (fields.map renamedField) (index.map renamedIndex) members =
      (translate? (fields.map (fieldRule id id (renamedPart direction)))
        (index.map (renamedOpenPart direction)) members).map
          fun outputs => .object (ofList outputs) := by
  rw [structOutcome?, List.map_map, Option.map_map]
  rfl

/-- A struct without renames crosses its members. -/
theorem outcome?_plainStruct (names : (fields.map Field.name).Nodup)
    (plain : (Renames.ofFields fields).isEmpty = true) (direction : Direction)
    (unique : (keys members).Nodup) :
    (Schema.struct (fields.map renamedField) (index.map renamedIndex)).outcome? direction
      (.object members) = (cross? direction fields index members).map .object := by
  rw [outcome?_struct, structOutcome?_renamed, cross?, Renames.nameOn_of_isEmpty plain,
    Renames.nameOn_of_isEmpty plain]
  exact map_translate?_ofList names unique

/-- The codec of a struct crosses the members in decoding. -/
theorem outcome?_renameCodec_decode (names : (fields.map Field.name).Nodup)
    (encodedNames : (namesOn .encoded fields).Nodup) (unique : (keys members).Nodup) :
    (renameCodec (Renames.ofFields fields) (fields.map renamedField)
      (index.map renamedIndex)).outcome? .decode (.object members) =
      (cross? .decode fields index members).map .object := by
  have retypedNames : ((fields.map renamedField).map fun field =>
      (Renames.ofFields fields).encodedName field.name).Nodup := by
    rw [List.map_map]
    exact encodedNames
  rw [outcome?, transcode, decode_renameCodec retypedNames (by rintro _ ⟨⟩; exact unique),
    toOption_bind, toOption_mapError, KeyMap.ofStruct_renamedField, Option.isSome_map,
    toOption_carry_ofStruct, map_translate?_ofList names unique]
  simp only [toOption_transcodeAt, Option.bind_map, Function.comp_def, outcome?_decodedStruct,
    structOutcome?_renamed]
  -- the key map gives the names of the fields, which the target keeps
  refine (bind_translate?_fieldRule names names unique translate?_isSome_of_thenPart).trans ?_
  rw [some_thenPart, some_thenPart]
  rfl

/-- The codec of a struct crosses the members in encoding. -/
theorem outcome?_renameCodec_encode (names : (fields.map Field.name).Nodup)
    (encodedNames : (namesOn .encoded fields).Nodup) (unique : (keys members).Nodup) :
    (renameCodec (Renames.ofFields fields) (fields.map renamedField)
      (index.map renamedIndex)).outcome? .encode (.object members) =
      (cross? .encode fields index members).map .object := by
  have retypedNames : ((fields.map renamedField).map fun field =>
      (Renames.ofFields fields).encodedName field.name).Nodup := by
    rw [List.map_map]
    exact encodedNames
  rw [outcome?, transcode, encode_renameCodec retypedNames, toOption_bind,
    toOption_transcodeAt, outcome?_decodedStruct, structOutcome?_renamed,
    map_translate?_ofList names unique]
  simp only [toOption_mapError, Option.bind_map, Function.comp_def, KeyMap.ofStruct_renamedField,
    Option.isSome_map, toOption_carry_ofStruct]
  -- the target keeps the names of the fields, and the key map gives the encoded ones
  refine (bind_translate?_fieldRule names encodedNames unique fun both =>
    translate?_isSome_of_write (translate?_isSome_of_thenPart both)).trans ?_
  rw [thenPart_some, thenPart_some]
  rfl

/-- **A struct with its renames applied** translates objects from the names on the input side to the
names on the other side. -/
theorem outcome?_renamed_struct {applied : Schema} (names : (fields.map Field.name).Nodup)
    (applies : (Schema.struct fields index).applyRenames = .ok applied) (direction : Direction)
    (unique : (keys members).Nodup) :
    (Schema.struct fields index).renamed.outcome? direction (.object members) =
      (cross? direction fields index members).map .object := by
  rw [renamed_of_applyRenames applies]
  obtain ⟨_, _, encodedNames, rfl⟩ := applyRenames_struct_eq_ok applies
  rw [renamedStruct]
  cases plain : (Renames.ofFields fields).isEmpty with
  | true => exact outcome?_plainStruct names plain direction unique
  | false =>
      cases direction with
      | encode => exact outcome?_renameCodec_encode names (encodedNames plain) unique
      | decode => exact outcome?_renameCodec_decode names (encodedNames plain) unique

/-- What is no object does not go through a struct, with renames or without. -/
theorem outcome?_renamed_struct_of_not_object {applied : Schema}
    (applies : (Schema.struct fields index).applyRenames = .ok applied) (direction : Direction)
    {value : Value} (other : value.members? = none) :
    (Schema.struct fields index).renamed.outcome? direction value = none := by
  rw [outcome?, transcode, transcodeAt_renamed_struct_of_not_object applies other]
  rfl

end Crossing

section Tuples

variable {elements : List (Element Schema)} {rest : Option Schema} {isReadonly : Bool}
  {applied : Schema}

/-- **A tuple with its renames applied** translates the items of an array of a length that it
admits. -/
theorem outcome?_renamed_tuple
    (applies : (Schema.tuple elements rest isReadonly).applyRenames = .ok applied)
    (direction : Direction) (items : List Value) :
    (Schema.tuple elements rest isReadonly).renamed.outcome? direction (.array items) =
      if admitsArity elements rest.isSome items.length then
        (Items.translate? (fun position =>
          (slotType elements rest position).renamed.outcome? direction) items).map .array
      else none := by
  rw [renamed_of_applyRenames applies]
  obtain ⟨_, _, rfl⟩ := applyRenames_tuple_eq_ok applies
  simp only [outcome?_tuple, tupleOutcome?, admitsArity_renamed, slotType_renamed]

/-- What is no array does not go through a tuple, with renames inside it or without. -/
theorem outcome?_renamed_tuple_of_not_array
    (applies : (Schema.tuple elements rest isReadonly).applyRenames = .ok applied)
    (direction : Direction) {value : Value} (other : value.items? = none) :
    (Schema.tuple elements rest isReadonly).renamed.outcome? direction value = none := by
  rw [renamed_of_applyRenames applies]
  obtain ⟨_, _, rfl⟩ := applyRenames_tuple_eq_ok applies
  exact outcome?_tuple_of_not_array _ _ _ _ other

end Tuples

end Schema

end WireSchema

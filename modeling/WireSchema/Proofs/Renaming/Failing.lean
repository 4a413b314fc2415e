import WireSchema.Proofs.Renaming.Codec
import WireSchema.Proofs.Transcoding.Errors

/-! # How renamed structs fail

Why a value does not go through a struct whose renames have been applied. Behind the key map of its
codec the members bear the names of the other side, but every error is told by the names of the
input: with renames or without, and in either direction, the value is no object, or a required field
is missing, or an undeclared key is in the way of a field, or a member fails (`StructFailure`). -/

namespace WireSchema.Schema

open Members

/-- **The ways in which a struct fails** for the value at a path, once its renames are applied. -/
inductive StructFailure (direction : Direction) (path : String) (fields : List (Field Schema))
    (index : Option (IndexSignature Schema)) : Value → TranscodingError → Prop
  /-- The value is no object. -/
  | wrongKind {value : Value} (other : value.members? = none) :
      StructFailure direction path fields index value ⟨path, .wrongKind "object" value.kind⟩
  /-- A required field is missing. -/
  | missingKey {members : List (String × Value)} {field : Field Schema} (held : field ∈ fields)
      (required : field.isOptional = false)
      (absent : find? members ((Renames.ofFields fields).nameOn direction.inputSide field.name) =
        none) :
      StructFailure direction path fields index (.object members)
        ⟨path, .missingKey ((Renames.ofFields fields).nameOn direction.inputSide field.name)
          direction.inputSide⟩
  /-- An undeclared key is the name of a field on the other side. -/
  | keyCollision {members : List (String × Value)} {key : String} (isOpen : index.isSome)
      (held : key ∈ keys members) (undeclared : key ∉ namesOn direction.inputSide fields)
      (declared : key ∈ namesOn direction.inputSide.opposite fields) :
      StructFailure direction path fields index (.object members) ⟨path, .keyCollision key⟩
  /-- What stands under the name of a field does not go through its type. -/
  | field {members : List (String × Value)} {field : Field Schema} {inner : Value}
      {error : TranscodingError} (held : field ∈ fields)
      (found : find? members ((Renames.ofFields fields).nameOn direction.inputSide field.name) =
        some inner)
      (fails : transcodeAt direction (Pointer.child path
        ((Renames.ofFields fields).nameOn direction.inputSide field.name)) id field.type.renamed
          inner = .error error) :
      StructFailure direction path fields index (.object members) error
  /-- What stands under an undeclared key does not go through the index type. -/
  | other {members : List (String × Value)} {signature : IndexSignature Schema} {key : String}
      {inner : Value} {error : TranscodingError} (isOpen : signature ∈ index)
      (undeclared : key ∉ namesOn direction.inputSide fields) (held : (key, inner) ∈ members)
      (fails : transcodeAt direction (Pointer.child path key) id signature.value.renamed inner =
        .error error) :
      StructFailure direction path fields index (.object members) error

variable {direction : Direction} {path : String} {inputName : String → String}
  {fields : List (Field Schema)} {index : Option (IndexSignature Schema)} {value : Value}
  {members walked : List (String × Value)} {error : TranscodingError}

/-! ## (1) Walks and key maps -/

/-- A walk over members that stand for those of the input fails as the struct does: where each field
finds what the input holds under its name, and the others are undeclared members of the input. -/
theorem structFailure_of_walk {retype : Field Schema → Field Schema}
    (named : ∀ field, (retype field).name = field.name)
    (optional : ∀ field, (retype field).isOptional = field.isOptional)
    (typed : ∀ field, (retype field).type = field.type.renamed)
    (inputNames : ∀ field ∈ fields,
      inputName field.name = (Renames.ofFields fields).nameOn direction.inputSide field.name)
    (declaredSame : ∀ field ∈ fields, find? walked field.name =
      find? members ((Renames.ofFields fields).nameOn direction.inputSide field.name))
    (othersSame : ∀ member ∈ walked, member.1 ∉ fields.map Field.name →
      member ∈ members ∧ member.1 ∉ namesOn direction.inputSide fields)
    (fails : transcodeAt direction path inputName
      (.struct (fields.map retype) (index.map renamedIndex)) (.object walked) = .error error) :
    StructFailure direction path fields index (.object members) error := by
  have names : (fields.map retype).map Field.name = fields.map Field.name := by simp [named]
  rcases transcodeAt_struct_eq_error fails with ⟨isNone, _⟩ | ⟨_, same, inside⟩
  · cases isNone
  cases same
  -- a declared member is missing, or fails below, or an undeclared one does
  rcases inside with ⟨_, retyped, missing | ⟨inner, found, below⟩⟩ |
    ⟨_, resigned, member, memberHeld, undeclared, below⟩
  · obtain ⟨field, held, rfl⟩ := List.mem_map.mp retyped
    rw [named, optional, declaredSame field held, inputNames field held] at missing
    obtain ⟨absent, required, rfl⟩ := missing
    exact .missingKey held required absent
  · obtain ⟨field, held, rfl⟩ := List.mem_map.mp retyped
    rw [named, declaredSame field held] at found
    rw [named, typed, inputNames field held] at below
    exact .field held found below
  · obtain ⟨signature, isOpen, rfl⟩ := Option.map_eq_some_iff.mp resigned
    rw [names] at undeclared
    obtain ⟨held, outside⟩ := othersSame member memberHeld undeclared
    exact .other isOpen outside held below

/-- The key map of a struct fails for the input as the struct does. -/
theorem structFailure_of_carry
    (fails : ((KeyMap.ofStruct (Renames.ofFields fields) fields index.isSome).carry
      direction.inputSide value).mapError (·.anchored path) = .error error) :
    StructFailure direction path fields index value error := by
  obtain ⟨inner, carries, rfl⟩ := mapError_eq_error_iff.mp fails
  rcases KeyMap.carry_eq_error carries with
    ⟨other, rfl⟩ | ⟨members, rfl, ⟨pair, missing, rfl⟩ | ⟨isOpen, key, collision, rfl⟩⟩
  · rw [TranscodingError.anchored_root]
    exact .wrongKind other
  · obtain ⟨field, held, name, required, absent⟩ := exists_field_of_missing? missing
    rw [TranscodingError.anchored_root, name]
    exact .missingKey held required absent
  · obtain ⟨held, undeclared, declared⟩ := apart_of_collision? collision
    rw [TranscodingError.anchored_root]
    exact .keyCollision isOpen held undeclared declared

/-- The key map of a struct tells the encoded name of each field. -/
theorem inputName_ofStruct (renames : Renames) (isOpen : Bool) {field : Field Schema}
    (held : field ∈ fields) :
    Schema.inputName (.keys (KeyMap.ofStruct renames fields isOpen)) .encoded field.name =
      renames.encodedName field.name := by
  rw [Schema.inputName, Conversion.keyOn?, KeyMap.keyOn?, KeyMap.ofStruct, List.find?_map]
  cases found : fields.find? ((fun pair : KeyPair => pair.on Side.encoded.opposite == field.name) ∘
      fun field => ⟨field.name, renames.encodedName field.name, field.isOptional⟩) with
  | some other =>
      -- another field of this name would have the same encoded name
      have same : other.name = field.name := by
        simpa [KeyPair.on, Side.opposite] using List.find?_some found
      show renames.encodedName other.name = _
      rw [same]
  | none =>
      have apart := List.find?_eq_none.mp found field held
      exact absurd (beq_self_eq_true field.name) apart

/-! ## (2) Structs without renames -/

/-- A struct without renames fails in one of the ways told by its own names. -/
theorem structFailure_of_plainStruct (plain : (Renames.ofFields fields).isEmpty = true)
    (fails : transcodeAt direction path id
      (.struct (fields.map renamedField) (index.map renamedIndex)) value = .error error) :
    StructFailure direction path fields index value error := by
  have same := Renames.nameOn_of_isEmpty plain direction.inputSide
  cases value with
  | object members =>
      refine structFailure_of_walk ?_ ?_ ?_ ?_ ?_ ?_ fails
      · exact fun _ => rfl
      · exact fun _ => rfl
      · exact fun _ => rfl
      · intro field _
        rw [same]
      · intro field _
        rw [same]
        rfl
      · intro member held undeclared
        rw [namesOn, same]
        exact ⟨held, undeclared⟩
  | _ =>
      rw [transcodeAt_struct_of_not_object _ _ _ _ _ rfl] at fails
      cases fails
      exact .wrongKind rfl

/-! ## (3) Rename codecs -/

section RenameCodec

variable (encodedNames : (namesOn .encoded fields).Nodup)

include encodedNames in
/-- Renamed fields have the distinct encoded names of the fields. -/
theorem nodup_encodedName_renamedField :
    ((fields.map renamedField).map fun field =>
      (Renames.ofFields fields).encodedName field.name).Nodup := by
  rw [List.map_map]
  exact encodedNames

/-- What the target puts out under no name of a field was undeclared in the input. -/
theorem mem_keys_of_transcodeAt_decodedStruct
    (walks : transcodeAt direction path inputName (decodedStruct fields index) (.object members) =
      .ok (.object walked)) {key : String} (held : key ∈ keys walked)
    (undeclared : key ∉ fields.map Field.name) : key ∈ keys members := by
  rw [← toOption_eq_some_iff, toOption_transcodeAt_decodedStruct] at walks
  obtain ⟨outputs, translated, same⟩ := Option.map_eq_some_iff.mp walks
  cases same
  rw [mem_keys_ofList] at held
  refine mem_keys_of_translate? translated held ?_
  rw [writeNames_fieldRule]
  exact undeclared

include encodedNames in
/-- **Encoding**: the target walks the input, and what it has put out can only fail for a key. -/
theorem structFailure_of_encode (names : (fields.map Field.name).Nodup)
    (fails : transcodeAt .encode path id (renameCodec (Renames.ofFields fields)
      (fields.map renamedField) (index.map renamedIndex)) value = .error error) :
    StructFailure .encode path fields index value error := by
  rw [encode_renameCodec (nodup_encodedName_renamedField encodedNames),
    KeyMap.ofStruct_renamedField, Option.isSome_map] at fails
  have sameNames : (fields.map renamedField).map Field.name = fields.map Field.name := List.map_map
  cases value with
  | object members =>
      rcases bind_eq_error_iff.mp fails with target | ⟨output, walks, anchored⟩
      · rw [decodedStruct, List.map_map] at target
        refine structFailure_of_walk ?_ ?_ ?_ ?_ ?_ ?_ target
        · exact fun _ => rfl
        · exact fun _ => rfl
        · exact fun _ => rfl
        · exact fun _ _ => rfl
        · exact fun _ _ => rfl
        · exact fun _ held undeclared => ⟨held, undeclared⟩
      · obtain ⟨walked, rfl, arranged⟩ :=
          isArranged_of_transcodeAt_decodedStruct (by rw [sameNames]; exact names) walks
        obtain ⟨inner, carries, rfl⟩ := mapError_eq_error_iff.mp anchored
        rcases KeyMap.carry_eq_error carries with
          ⟨isNone, _⟩ | ⟨_, ⟨⟩, ⟨pair, missing, _⟩ | ⟨isOpen, key, collision, rfl⟩⟩
        · cases isNone
        · -- what the target has put out holds all the required fields
          obtain ⟨field, held, _, required, absent⟩ := exists_field_of_missing? missing
          have retyped : renamedField field ∈ fields.map renamedField := List.mem_map_of_mem held
          have present := arranged.find?_ne_none retyped required
          exact absurd absent present
        · obtain ⟨held, undeclared, declared⟩ := apart_of_collision? collision
          rw [TranscodingError.anchored_root]
          refine .keyCollision isOpen ?_ undeclared declared
          exact mem_keys_of_transcodeAt_decodedStruct walks held
            (by rw [sameNames]; exact undeclared)
  | _ =>
      rw [decodedStruct, transcodeAt_struct_of_not_object _ _ _ _ _ rfl] at fails
      cases fails
      exact .wrongKind rfl

include encodedNames in
/-- **Decoding**: the key map carries the input over, and the target walks what it has given. -/
theorem structFailure_of_decode (names : (fields.map Field.name).Nodup)
    (unique : ∀ members, value = .object members → (keys members).Nodup)
    (fails : transcodeAt .decode path id (renameCodec (Renames.ofFields fields)
      (fields.map renamedField) (index.map renamedIndex)) value = .error error) :
    StructFailure .decode path fields index value error := by
  rw [decode_renameCodec (nodup_encodedName_renamedField encodedNames) unique,
    KeyMap.ofStruct_renamedField, Option.isSome_map] at fails
  rcases bind_eq_error_iff.mp fails with carries | ⟨carried, carries, walks⟩
  · exact structFailure_of_carry carries
  · rw [← toOption_eq_some_iff, toOption_mapError, toOption_eq_some_iff] at carries
    obtain ⟨members, rfl⟩ := exists_members_of_carry carries
    rw [← toOption_eq_some_iff, toOption_carry_ofStruct] at carries
    obtain ⟨outputs, translated, rfl⟩ := Option.map_eq_some_iff.mp carries
    have written : (writeNames (fields.map (fieldRule
        ((Renames.ofFields fields).nameOn .encoded) ((Renames.ofFields fields).nameOn .decoded)
          fun _ => some))).Nodup := by
      rw [writeNames_fieldRule]
      exact names
    rw [ofList_of_nodup (nodup_keys_translate? written (unique members rfl) translated),
      decodedStruct, List.map_map] at walks
    refine structFailure_of_walk ?_ ?_ ?_ ?_ ?_ ?_ walks
    · exact fun _ => rfl
    · exact fun _ => rfl
    · exact fun _ => rfl
    · intro field held
      exact inputName_ofStruct _ _ held
    · -- under the name of a field stands what stood under its encoded name
      intro field held
      have moved := find?_translate?_write written translated (List.mem_map_of_mem held)
      rw [write_fieldRule, read_fieldRule, part_fieldRule, Option.bind_fun_some] at moved
      exact moved
    · rintro ⟨key, inner⟩ held undeclared
      rcases mem_translate? translated held with
        ⟨rule, ruleHeld, _, _, _, same⟩ | ⟨part, isOpen, kept, memberHeld, unread, same⟩
      · obtain ⟨field, fieldHeld, rfl⟩ := List.mem_map.mp ruleHeld
        exact absurd (same ▸ List.mem_map_of_mem fieldHeld) undeclared
      · obtain ⟨_, _, rfl⟩ := Option.map_eq_some_iff.mp isOpen
        cases same
        rw [readNames_fieldRule] at unread
        exact ⟨memberHeld, unread⟩

end RenameCodec

/-- **A struct with its renames applied fails** in one of the ways told by the names of the
input. -/
theorem structFailure_of_transcodeAt {applied : Schema} (names : (fields.map Field.name).Nodup)
    (applies : (Schema.struct fields index).applyRenames = .ok applied)
    (unique : ∀ members, value = .object members → (keys members).Nodup)
    (fails : transcodeAt direction path id applied value = .error error) :
    StructFailure direction path fields index value error := by
  obtain ⟨_, _, encodedNames, rfl⟩ := applyRenames_struct_eq_ok applies
  rw [renamedStruct] at fails
  cases plain : (Renames.ofFields fields).isEmpty with
  | true =>
      rw [plain, if_pos rfl] at fails
      exact structFailure_of_plainStruct plain fails
  | false =>
      rw [plain, if_neg Bool.false_ne_true] at fails
      cases direction with
      | encode => exact structFailure_of_encode (encodedNames plain) names fails
      | decode => exact structFailure_of_decode (encodedNames plain) names unique fails

end WireSchema.Schema

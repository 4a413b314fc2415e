import WireSchema.Proofs.Renaming.Codec
import WireSchema.Proofs.Transcoding.Anchoring
import WireSchema.Proofs.Transcoding.Errors

/-! # The two sides of a rename codec

The codec that stands for a renamed struct looks for missing fields three times: in its source, in
its key map and in its target. All three agree. On decoding, the source changes nothing about what
the key map gives or how it fails, and to what the key map gives the target raises no objection of
its own; on encoding, the source lets through unchanged what the key map gives
(`renameStruct_walksAgree`). -/

namespace WireSchema.Schema

open Members

/-- **An error from inside an object**: a member does not go through the type of its field, or else
through the index type. -/
inductive MemberFailure (direction : Direction) (path : String) (inputName : String → String)
    (fields : List (Field Schema)) (index : Option (IndexSignature Schema))
    (members : List (String × Value)) (error : TranscodingError) : Prop
  /-- What stands under the name of a field does not go through its type. -/
  | field {field : Field Schema} {inner : Value} (held : field ∈ fields)
      (found : find? members field.name = some inner)
      (fails : transcodeAt direction (Pointer.child path (inputName field.name)) id field.type
        inner = .error error)
  /-- What stands under an undeclared key does not go through the index type. -/
  | other {signature : IndexSignature Schema} {key : String} {inner : Value}
      (isOpen : signature ∈ index) (undeclared : key ∉ fields.map Field.name)
      (held : (key, inner) ∈ members)
      (fails : transcodeAt direction (Pointer.child path key) id signature.value inner =
        .error error)

section Failures

variable {direction : Direction} {path : String} {inputName : String → String}
  {fields : List (Field Schema)} {index : Option (IndexSignature Schema)}
  {members : List (String × Value)} {error : TranscodingError}

/-- An error from inside an object points to a member or below it. -/
theorem MemberFailure.exists_path
    (failure : MemberFailure direction path inputName fields index members error) :
    ∃ segment below, error.path = Pointer.child path segment ++ below := by
  cases failure with
  | field _ _ fails => exact ⟨_, exists_path_of_transcodeAt fails⟩
  | other _ _ _ fails => exact ⟨_, exists_path_of_transcodeAt fails⟩

/-- An object with all required members fails in a struct only for what is inside it. -/
theorem memberFailure_of_transcodeAt
    (complete : ∀ field ∈ fields, field.isOptional = false → find? members field.name ≠ none)
    (fails : transcodeAt direction path inputName (.struct fields index) (.object members) =
      .error error) :
    MemberFailure direction path inputName fields index members error := by
  rcases transcodeAt_struct_eq_error fails with
    ⟨other, _⟩ | ⟨_, ⟨⟩, ⟨field, held, ⟨absent, required, _⟩ | ⟨inner, found, below⟩⟩ |
      ⟨signature, isOpen, member, memberHeld, undeclared, below⟩⟩
  · cases other
  · exact absurd absent (complete field held required)
  · exact .field held found below
  · exact .other isOpen undeclared memberHeld below

end Failures

variable {renames : Renames} {fields : List (Field Schema)} {index : Option (IndexSignature Schema)}

/-- In what the key map of a struct gives on decoding, the target misses nothing. -/
theorem memberFailure_of_carry {value carried : Value}
    (distinct : (fields.map fun field => renames.encodedName field.name).Nodup)
    (carries : (KeyMap.ofStruct renames fields index.isSome).carry .encoded value = .ok carried)
    {path : String} {inputName : String → String} {error : TranscodingError}
    (fails : transcodeAt .decode path inputName (decodedStruct fields index) carried =
      .error error) :
    ∃ members, carried = .object members ∧
      MemberFailure .decode path inputName (fields.map decodedField) index members error := by
  obtain ⟨members, rfl, arranged⟩ :=
    isArranged_of_carry .encoded (Renames.nodup_names_of_encodedNames distinct) carries
  refine ⟨members, rfl, memberFailure_of_transcodeAt ?_ fails⟩
  -- a required field that is missing would have failed the conversion before
  rw [List.forall_mem_map]
  intro field held required
  have present : find? members field.name ≠ none := arranged.find?_ne_none held required
  exact present

/-- The codec that stands for a struct knows the types inside it with their renames applied. -/
theorem renameStruct_eq_ok {codec : Schema}
    (synthesizes : renameStruct renames fields index = .ok codec) :
    ((fields.map renamedField).map fun field => renames.encodedName field.name).Nodup ∧
      codec = renameCodec renames (fields.map renamedField) (index.map renamedIndex) := by
  rw [renameStruct] at synthesizes
  -- a conflict would have been the error
  cases conflict : findConflict renames fields with
  | some _ =>
      rw [conflict] at synthesizes
      cases synthesizes
  | none =>
      simp only [conflict] at synthesizes
      obtain ⟨types, first, later⟩ := bind_eq_ok_iff.mp synthesizes
      obtain ⟨indexType, second, same⟩ := bind_eq_ok_iff.mp later
      cases same
      rw [(applyRenamesFields_eq_ok first).2, (applyRenamesIndex_eq_ok second).2, List.map_map]
      exact ⟨(findConflict_eq_none_iff _ _).mp conflict, rfl⟩

/-- **The walks of a rename codec and its key map agree.** On decoding, what the conversion gives
and how it fails is the same behind the source and without it, and what the target rejects of it are
members, not the object; on encoding, the source changes nothing about what the conversion gives,
and rejects nothing of it. -/
theorem renameStruct_walksAgree {codec : Schema}
    (synthesizes : renameStruct renames fields index = .ok codec) :
    ∃ source targetFields targetIndex conversion,
      codec = .codec source (.struct targetFields targetIndex) conversion ∧
      ∀ path,
        (∀ value, (∀ members, value = .object members → (keys members).Nodup) →
          (do
            let walked ← transcodeAt .decode path id source value
            (conversion.decode walked).mapError (·.anchored path)) =
            (conversion.decode value).mapError (·.anchored path)) ∧
        (∀ value carried inputName error, conversion.decode value = .ok carried →
          transcodeAt .decode path inputName (.struct targetFields targetIndex) carried =
            .error error →
          (∃ members, carried = .object members ∧
            MemberFailure .decode path inputName targetFields targetIndex members error) ∧
          ∃ segment below, error.path = Pointer.child path segment ++ below) ∧
        ∀ value carried inputName, conversion.encode value = .ok carried →
          transcodeAt .encode path inputName source carried = .ok carried := by
  obtain ⟨distinct, rfl⟩ := renameStruct_eq_ok synthesizes
  refine ⟨_, _, _, _, renameCodec_eq _ _ _, fun path => ⟨?_, ?_, ?_⟩⟩
  · intro value unique
    exact carry_after_source distinct unique path
  · intro value carried inputName error carries fails
    obtain ⟨members, isObject, failure⟩ := memberFailure_of_carry distinct carries fails
    exact ⟨⟨members, isObject, failure⟩, failure.exists_path⟩
  · intro value carried inputName carries
    exact transcodeAt_encodedStruct_of_carry distinct carries .encode path inputName

/-- A parcel without its date is rejected behind the source as it is without it. -/
theorem renameStruct_walksAgree_parcel :
    let fields : List (Field Schema) :=
      [⟨"sent", timestampText, false, false, some "at", []⟩,
        ⟨"heavy", booleanText "Y" "N", false, false, none, []⟩]
    let codec := renameCodec (Renames.ofFields fields) fields none
    let written : Value := .object [("heavy", .string "maybe")]
    renameStruct (Renames.ofFields fields) fields none = .ok codec ∧
      ∃ source targetFields targetIndex conversion,
        codec = .codec source (.struct targetFields targetIndex) conversion ∧
        (do
          let walked ← transcodeAt .decode "/0" id source written
          (conversion.decode walked).mapError (·.anchored "/0")) =
          (.error ⟨"/0", .missingKey "at" .encoded⟩ : Except TranscodingError Value) := by
  intro fields codec written
  have synthesizes : renameStruct (Renames.ofFields fields) fields none = .ok codec := rfl
  obtain ⟨source, targetFields, targetIndex, conversion, same, agree⟩ :=
    renameStruct_walksAgree synthesizes
  have unique : ∀ members, written = .object members → (keys members).Nodup := by
    intro members isObject
    injection isObject with sameMembers
    rw [← sameMembers]
    decide
  refine ⟨synthesizes, source, targetFields, targetIndex, conversion, same, ?_⟩
  rw [(agree "/0").1 written unique]
  injection same with _ _ sameConversion
  rw [← sameConversion]
  rfl

end WireSchema.Schema

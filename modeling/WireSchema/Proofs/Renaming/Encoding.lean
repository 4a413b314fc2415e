import WireSchema.Proofs.Renaming.Codec
import WireSchema.Proofs.Renaming.Reshaping
import WireSchema.Proofs.Transcoding.Errors
import WireSchema.Proofs.Transcoding.Following

/-! # Encoding with renames applied

Encoding with the renames of a schema applied gives what encoding with the schema gives, under the
encoded names, and fails with the same errors at the same places; it can fail in one more way, by an
undeclared key that takes the place of a renamed field. -/

namespace WireSchema.Schema

open Members

/-! ## (1) Carrying what a struct puts out -/

section Carry

variable {renames : Renames} {fields : List (Field Schema)}
  {index : Option (IndexSignature Schema)} {members : List (String × Value)}

/-- Arranged members that can be given the encoded names get them in place. -/
theorem eq_map_of_isArranged
    (outside : ∀ name ∉ fields.map Field.name, renames.encodedName name = name)
    (arranged : IsArranged id fields index members) {outputs : List (String × Value)}
    (translated : translate? (fields.map (fieldRule id renames.encodedName fun _ => some))
      (index.map fun _ => some) members = some outputs) :
    outputs = members.map fun member => (renames.encodedName member.1, member.2) := by
  obtain ⟨declared, others, first, second, same⟩ := translate?_eq_some_iff.mp arranged.2
  obtain ⟨carried, kept, firstCarried, secondKept, rfl⟩ := translate?_eq_some_iff.mp translated
  have sameDeclared :
      carried = declared.map fun member => (renames.encodedName member.1, member.2) := by
    have moved := declared?_map_write members (fields.map (fieldRule id id fun _ => some))
      renames.encodedName
    rw [first, List.map_map] at moved
    exact Option.some.inj (firstCarried.symm.trans moved)
  have sameOthers : kept = others.map fun member => (renames.encodedName member.1, member.2) := by
    cases index with
    | none =>
        cases second
        cases secondKept
        rfl
    | some signature =>
        -- both keep what is under no name of a field, and there the names agree
        have keeps := eq_filter_of_undeclared? secondKept
        have keepsToo := eq_filter_of_undeclared? second
        rw [readNames_fieldRule] at keeps keepsToo
        have unchanged : ∀ member ∈ others, (renames.encodedName member.1, member.2) = member := by
          intro member held
          rw [keepsToo, List.mem_filter] at held
          rw [outside member.1 (of_decide_eq_true held.2)]
        rw [List.map_congr_left unchanged, List.map_id', keeps, keepsToo]
  rw [sameDeclared, sameOthers, ← List.map_append, same]

/-- **Carrying arranged members** gives them the encoded names in place, unless the struct is open
and one of the undeclared keys is an encoded name. -/
theorem carry_of_isArranged
    (distinct : (fields.map fun field => renames.encodedName field.name).Nodup)
    (outside : ∀ name ∉ fields.map Field.name, renames.encodedName name = name)
    (arranged : IsArranged id fields index members) :
    (index.isSome ∧ ∃ key, (KeyMap.ofStruct renames fields index.isSome).carry .decoded
      (.object members) = .error ⟨"", .keyCollision key⟩) ∨
    (KeyMap.ofStruct renames fields index.isSome).carry .decoded (.object members) =
      .ok (.object (members.map fun member => (renames.encodedName member.1, member.2))) := by
  rcases carry_ofStruct renames fields index .decoded members with
    ⟨pair, missing, _⟩ | collision | ⟨outputs, translated, carries⟩
  · -- arranged members hold all the required ones, so that none is missing
    obtain ⟨field, held, _, required, absent⟩ := exists_field_of_missing? missing
    exact absurd absent (arranged.find?_ne_none held required)
  · exact Or.inl collision
  · have same := eq_map_of_isArranged outside arranged translated
    have unique : (keys outputs).Nodup :=
      nodup_keys_translate? (by rw [writeNames_fieldRule]; exact distinct) arranged.1 translated
    rw [← same, carries, ofList_of_nodup unique]
    exact Or.inr rfl

end Carry

/-! ## (2) Encoded keys -/

/-- The reshaping that gives each declared member its encoded name. -/
def encodedKeys : Reshaping where
  side := .decoded
  name? fields _ key := some ((Renames.ofFields fields).encodedName key)
  convert? _ := none

/-- What a schema has put out, under the encoded names: the declared members of objects get their
encoded names, all others keep theirs. -/
def withEncodedKeys (schema : Schema) (value : Value) : Value := schema.reshape encodedKeys value

/-- Change the values of the members of an object in place. -/
def mapMembers (change : String → Value → Value) : Value → Value
  | .object members => .object (mapValues change members)
  | other => other

/-- What becomes of the members of a struct inside. -/
def memberWithEncodedKeys (fields : List (Field Schema)) (index : Option (IndexSignature Schema))
    (key : String) : Value → Value :=
  (memberType .decoded fields index key).withEncodedKeys

/-- The keys of an object are encoded by the names of the struct, and its entries by their types. -/
theorem withEncodedKeys_struct (fields : List (Field Schema))
    (index : Option (IndexSignature Schema)) (members : List (String × Value)) :
    (Schema.struct fields index).withEncodedKeys (.object members) =
      .object ((mapValues (memberWithEncodedKeys fields index) members).map
        fun member => ((Renames.ofFields fields).encodedName member.1, member.2)) := by
  rw [withEncodedKeys, reshape_struct]
  exact congrArg Value.object (rekey_eq_map_mapValues _ _ members)

/-- The items of an array are encoded by the types at their positions. -/
theorem withEncodedKeys_tuple (elements : List (Element Schema)) (rest : Option Schema)
    (isReadonly : Bool) (items : List Value) :
    (Schema.tuple elements rest isReadonly).withEncodedKeys (.array items) =
      .array (items.mapIdx fun position => (slotType elements rest position).withEncodedKeys) :=
  reshape_tuple encodedKeys elements rest isReadonly items

/-- The keys that a codec encodes are those of its source. -/
theorem withEncodedKeys_codec (source target : Schema) (conversion : Conversion) :
    (Schema.codec source target conversion).withEncodedKeys = source.withEncodedKeys := by
  funext value
  exact reshape_codec encodedKeys source target conversion value

/-- A leaf has no keys to encode. -/
@[simp] theorem withEncodedKeys_leaf (kind : LeafType) (value : Value) :
    (Schema.leaf kind).withEncodedKeys value = value :=
  reshape_leaf encodedKeys kind value

/-! ## (3) Following the schema -/

/-- **A schema is followed** by itself with its renames applied: encoding with them gives the same
outputs under the encoded names and fails with the same errors, but for excused ones. -/
def IsFollowed (excused : TranscodingError → Prop) (schema : Schema) : Prop :=
  ∀ path value, FollowsUnless excused schema.withEncodedKeys
    (transcodeAt .encode path id schema.renamed value) (transcodeAt .encode path id schema value)

section Follows

variable {excused : TranscodingError → Prop} {fields : List (Field Schema)}
  {index : Option (IndexSignature Schema)}

/-- A leaf is followed by itself. -/
theorem isFollowed_leaf (kind : LeafType) : (Schema.leaf kind).IsFollowed excused := by
  intro path value
  simp [renamed_leaf, transcodeAt, FollowsUnless, Except.map]

/-- A struct is followed by a struct of the same names whose types have their renames applied, when
the types inside it are followed. -/
theorem followsUnless_retyped {retype : Field Schema → Field Schema} {whole : Value → Value}
    (named : ∀ field, (retype field).name = field.name)
    (optional : ∀ field, (retype field).isOptional = field.isOptional)
    (types : ∀ field, (retype field).type = field.type.renamed)
    (objects : ∀ members, whole (.object members) =
      .object (mapValues (memberWithEncodedKeys fields index) members))
    (names : (fields.map Field.name).Nodup)
    (declaredFollowed : ∀ field ∈ fields, field.type.IsFollowed excused)
    (othersFollowed : ∀ signature ∈ index, signature.value.IsFollowed excused)
    (path : String) (value : Value) :
    FollowsUnless excused whole
      (transcodeAt .encode path id (.struct (fields.map retype) (index.map renamedIndex)) value)
      (transcodeAt .encode path id (.struct fields index) value) := by
  refine followsUnless_struct named optional objects ?_ ?_ value
  · intro field held path value
    have type : memberType .decoded fields index field.name = field.type :=
      memberType_of_mem (show (namesOn .decoded fields).Nodup from names) held
    rw [memberWithEncodedKeys, type, types]
    exact declaredFollowed field held path value
  · intro signature held key undeclared path value
    have type : memberType .decoded fields index key = signature.value := by
      cases held
      exact memberType_of_notMem undeclared signature
    rw [memberWithEncodedKeys, type]
    exact othersFollowed signature held path value

/-- Without renames, a struct is followed when the types inside it are. -/
theorem followsUnless_plainStruct (plain : (Renames.ofFields fields).isEmpty = true)
    (names : (fields.map Field.name).Nodup)
    (declaredFollowed : ∀ field ∈ fields, field.type.IsFollowed excused)
    (othersFollowed : ∀ signature ∈ index, signature.value.IsFollowed excused)
    (path : String) (value : Value) :
    FollowsUnless excused (Schema.struct fields index).withEncodedKeys
      (transcodeAt .encode path id (.struct (fields.map renamedField) (index.map renamedIndex))
        value)
      (transcodeAt .encode path id (.struct fields index) value) := by
  refine followsUnless_retyped ?_ ?_ ?_ ?_ names declaredFollowed othersFollowed path value
  · exact fun _ => rfl
  · exact fun _ => rfl
  · exact fun _ => rfl
  · intro members
    rw [withEncodedKeys_struct]
    simp [Renames.encodedName_of_isEmpty plain]

/-- With renames, the target follows the schema when the types inside are followed, and then the
key map gives the encoded names. -/
theorem followsUnless_renameCodec (distinct : (namesOn .encoded fields).Nodup)
    (names : (fields.map Field.name).Nodup)
    (collides : index.isSome → ∀ path key, excused ⟨path, .keyCollision key⟩)
    (declaredFollowed : ∀ field ∈ fields, field.type.IsFollowed excused)
    (othersFollowed : ∀ signature ∈ index, signature.value.IsFollowed excused)
    (path : String) (value : Value) :
    FollowsUnless excused (Schema.struct fields index).withEncodedKeys
      (transcodeAt .encode path id
        (renameCodec (Renames.ofFields fields) (fields.map renamedField) (index.map renamedIndex))
        value)
      (transcodeAt .encode path id (.struct fields index) value) := by
  -- the target walks as the schema does, and leaves the names as they are
  have target : FollowsUnless excused (mapMembers (memberWithEncodedKeys fields index))
      (transcodeAt .encode path id
        (decodedStruct (fields.map renamedField) (index.map renamedIndex)) value)
      (transcodeAt .encode path id (.struct fields index) value) := by
    rw [decodedStruct, List.map_map]
    refine followsUnless_retyped ?_ ?_ ?_ ?_ names declaredFollowed othersFollowed path value
    · exact fun _ => rfl
    · exact fun _ => rfl
    · exact fun _ => rfl
    · exact fun _ => rfl
  have encodedNames : ((fields.map renamedField).map fun field =>
      (Renames.ofFields fields).encodedName field.name).Nodup := by
    rw [List.map_map]
    exact distinct
  rw [encode_renameCodec encodedNames]
  rcases target with ⟨error, fails, isExcused⟩ | same
  · rw [fails]
    exact Or.inl ⟨error, rfl, isExcused⟩
  · cases walks : transcodeAt .encode path id (.struct fields index) value with
    | error error =>
        rw [same, walks]
        exact .error error
    | ok output =>
        rw [walks] at same
        rw [same]
        have sameNames : (fields.map renamedField).map Field.name = fields.map Field.name :=
          List.map_map
        obtain ⟨members, isObject, arranged⟩ :=
          isArranged_of_transcodeAt_decodedStruct (by rw [sameNames]; exact names) same
        have outside : ∀ name ∉ (fields.map renamedField).map Field.name,
            (Renames.ofFields fields).encodedName name = name := by
          rw [sameNames]
          intro name
          exact Renames.encodedName_of_notMem
        show FollowsUnless excused _ (Except.mapError _ (KeyMap.carry _ _ _)) _
        rw [isObject]
        -- what the target has put out is arranged, so that the key map gives names in place
        rcases carry_of_isArranged encodedNames outside arranged with
          ⟨isOpen, key, collision⟩ | carries
        · rw [Option.isSome_map] at isOpen
          rw [collision]
          refine Or.inl ⟨_, rfl, ?_⟩
          show excused (TranscodingError.anchored path ⟨"", .keyCollision key⟩)
          rw [TranscodingError.anchored_root]
          exact collides isOpen path key
        · rw [carries]
          refine Or.inr (congrArg Except.ok ?_)
          cases output with
          | object inner =>
              cases isObject
              exact (withEncodedKeys_struct fields index inner).symm
          | _ => cases isObject

/-- A tuple is followed item by item. -/
theorem followsUnless_tuple {elements : List (Element Schema)} {rest : Option Schema}
    (isReadonly : Bool) (slots : ∀ position, (slotType elements rest position).IsFollowed excused)
    (path : String) (value : Value) :
    FollowsUnless excused (Schema.tuple elements rest isReadonly).withEncodedKeys
      (transcodeAt .encode path id
        (.tuple (elements.map renamedElement) (rest.map renamed) isReadonly) value)
      (transcodeAt .encode path id (.tuple elements rest isReadonly) value) := by
  cases value with
  | array items =>
      rw [transcodeAt_tuple, transcodeAt_tuple, admitsArity_renamed, requiredCount_renamed,
        List.length_map, Option.isSome_map]
      split
      · rw [funext (slotType_renamed elements rest)]
        refine (followsUnless_itemOutputs path 0 items slots).map Value.array Value.array ?_
        intro outputs
        exact (withEncodedKeys_tuple elements rest isReadonly outputs).symm
      · exact .error _
  | _ =>
      rw [transcodeAt_tuple_of_not_array _ _ _ _ _ _ rfl,
        transcodeAt_tuple_of_not_array _ _ _ _ _ _ rfl]
      exact .error _

/-- A codec whose conversion keeps the keys is followed when its source is. -/
theorem followsUnless_codec {source target : Schema} {conversion : Conversion}
    (plain : ∀ key side, conversion.keyOn? key side = none)
    (sourceFollowed : source.IsFollowed excused) (path : String) (value : Value) :
    FollowsUnless excused (Schema.codec source target conversion).withEncodedKeys
      (transcodeAt .encode path id (.codec source.renamed target conversion) value)
      (transcodeAt .encode path id (.codec source target conversion) value) := by
  have keepsNames : inputName conversion Direction.encode.inputSide = id := by
    funext name
    rw [inputName, plain]
    rfl
  rw [transcodeAt_codec, transcodeAt_codec, withEncodedKeys_codec, keepsNames]
  simp only [nearSide, farSide]
  -- the target is not looked into, and the conversion is given the same value
  apply (FollowsUnless.refl _).bind
  intro near _
  apply (FollowsUnless.refl _).bind
  intro carried _
  exact sourceFollowed path carried

/-- **What it takes to be followed**: distinct names, conversions that keep the keys, and an excuse
for the key collisions of open structs with renames. -/
structure CanBeFollowed (excused : TranscodingError → Prop) (schema : Schema) : Prop where
  /-- No struct repeats a name. -/
  distinct : schema.HasDistinctNames
  /-- No conversion renames keys. -/
  plain : schema.KeepsKeys
  /-- Key collisions are excused where an open struct has renames. -/
  collides : ∀ fields signature, .struct fields (some signature) ∈ schema.parts false →
    (Renames.ofFields fields).isEmpty = false → ∀ path key, excused ⟨path, .keyCollision key⟩

/-- What can be followed can be followed in its parts. -/
theorem CanBeFollowed.mono {schema inner : Schema} (able : schema.CanBeFollowed excused)
    (inside : ∀ entersTargets part, part ∈ inner.parts entersTargets →
      part ∈ schema.parts entersTargets) : inner.CanBeFollowed excused where
  distinct := able.distinct.mono (inside true)
  plain := able.plain.mono (inside true)
  collides fields signature held := able.collides fields signature (inside false _ held)

/-- **Encoding with renames applied follows the schema**: it gives the same outputs under the
encoded names and fails with the same errors, but for undeclared keys of open structs with
renames. -/
theorem isFollowed_of_applyRenames {schema applied : Schema}
    (applies : schema.applyRenames = .ok applied) (able : schema.CanBeFollowed excused) :
    schema.IsFollowed excused := by
  induction schema using Schema.induction generalizing applied with
  | leaf kind => exact isFollowed_leaf kind
  | struct fields index fieldsInduction indexInduction =>
      obtain ⟨eachField, eachIndex, encodedNames, shape⟩ := applyRenames_struct_eq_ok applies
      have names : (fields.map Field.name).Nodup := able.distinct _ _ (mem_parts_self _)
      have declaredFollowed : ∀ field ∈ fields, field.type.IsFollowed excused := by
        intro field held
        exact fieldsInduction field held (eachField field held)
          (able.mono fun _ _ => mem_parts_of_field held)
      have othersFollowed : ∀ signature ∈ index, signature.value.IsFollowed excused := by
        intro signature held
        exact indexInduction signature held (eachIndex signature held)
          (able.mono fun _ _ => mem_parts_of_index held)
      intro path value
      rw [renamed_of_applyRenames applies, shape, renamedStruct]
      cases noRenames : (Renames.ofFields fields).isEmpty with
      | true =>
          exact followsUnless_plainStruct noRenames names declaredFollowed othersFollowed path value
      | false =>
          -- an open struct may meet a key that its renames have given away, which has to be excused
          refine followsUnless_renameCodec (encodedNames noRenames) names ?_ declaredFollowed
            othersFollowed path value
          intro isOpen
          obtain ⟨signature, rfl⟩ := Option.isSome_iff_exists.mp isOpen
          exact able.collides fields signature (mem_parts_self _) noRenames
  | tuple elements rest isReadonly elementsInduction restInduction =>
      obtain ⟨eachElement, eachRest, shape⟩ := applyRenames_tuple_eq_ok applies
      have slots : ∀ position, (slotType elements rest position).IsFollowed excused := by
        refine slotType_induction ?_ ?_ (isFollowed_leaf .unknown)
        · intro element held
          exact elementsInduction element held (eachElement element held)
            (able.mono fun _ _ => mem_parts_of_element held)
        · intro type held
          exact restInduction type held (eachRest type held)
            (able.mono fun _ _ => mem_parts_of_rest held)
      intro path value
      rw [renamed_of_applyRenames applies, shape]
      exact followsUnless_tuple isReadonly slots path value
  | codec source target conversion sourceInduction targetInduction =>
      obtain ⟨appliesSource, shape⟩ := applyRenames_codec_eq_ok applies
      have sourceFollowed : source.IsFollowed excused :=
        sourceInduction appliesSource (able.mono fun _ _ => mem_parts_of_source)
      have plain := able.plain source target conversion (mem_parts_self _)
      intro path value
      rw [renamed_of_applyRenames applies, shape]
      -- the target is not renamed, so it follows itself
      exact followsUnless_codec plain sourceFollowed path value

end Follows

/-! ## (4) Whole runs -/

/-- **Encoding with renames applied** gives what encoding gives, under the encoded names and in the
same order, and fails with the very error that encoding fails with, unless it fails with a key
collision; and key collisions are raised only by open structs with renames and by conversions. -/
theorem encode_applyRenames {schema applied : Schema} (applies : schema.applyRenames = .ok applied)
    (distinct : schema.HasDistinctNames) (plain : schema.KeepsKeys) (value : Value) :
    ((∃ path key, applied.encode value = .error ⟨path, .keyCollision key⟩) ∨
      applied.encode value = (schema.encode value).map schema.withEncodedKeys) ∧
    ∀ path key, applied.encode value = .error ⟨path, .keyCollision key⟩ →
      schema.HasOpenRenames ∨ schema.HasCollidingConversion .encode := by
  have follows : FollowsUnless
      (fun error => schema.HasOpenRenames ∧ ∃ path key, error = ⟨path, .keyCollision key⟩)
      schema.withEncodedKeys (applied.encode value) (schema.encode value) := by
    rw [← renamed_of_applyRenames applies]
    refine isFollowed_of_applyRenames applies ⟨distinct, plain, ?_⟩ "" value
    intro fields signature held renames path key
    exact ⟨hasOpenRenames_of_isEmpty held renames, path, key, rfl⟩
  rcases follows with ⟨_, fails, isOpen, path, key, rfl⟩ | same
  · exact ⟨Or.inl ⟨path, key, fails⟩, fun _ _ _ => Or.inl isOpen⟩
  · refine ⟨Or.inr same, fun path key fails => Or.inr ?_⟩
    rw [same, map_eq_error_iff] at fails
    exact hasCollidingConversion_of_transcodeAt fails

/-- An order with a renamed field and notes besides it is encoded with its renames applied: the
field comes out under its encoded name. -/
theorem encode_applyRenames_order :
    let order : Schema := .struct
      [⟨"id", .leaf .string, false, false, some "order_id", []⟩,
        ⟨"placed", timestampText, true, false, none, []⟩] (some ⟨.string, .leaf .number, false⟩)
    let value : Value := .object [("note", .null), ("id", .string "7")]
    order.applyRenames = .ok order.renamed ∧
      (((∃ path key, order.renamed.encode value = .error ⟨path, .keyCollision key⟩) ∨
        order.renamed.encode value = (order.encode value).map order.withEncodedKeys) ∧
      ∀ path key, order.renamed.encode value = .error ⟨path, .keyCollision key⟩ →
        order.HasOpenRenames ∨ order.HasCollidingConversion .encode) ∧
      order.encode value = .ok (.object [("id", .string "7"), ("note", .null)]) ∧
      order.renamed.encode value = .ok (.object [("order_id", .string "7"), ("note", .null)]) := by
  intro order value
  have applies : order.applyRenames = .ok order.renamed := rfl
  have distinct : order.HasDistinctNames := by decide
  have plain : order.KeepsKeys := by
    intro source target conversion held key side
    simp [order, parts, partsOfFields, partsOfIndex, timestampText] at held
    rw [held.2.2]
    rfl
  exact ⟨applies, encode_applyRenames applies distinct plain value, rfl, rfl⟩

end WireSchema.Schema

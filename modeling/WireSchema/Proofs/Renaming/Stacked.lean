import WireSchema.Proofs.ErrorPlaces
import WireSchema.Proofs.Transcoding.Tracing

/-! # Where the errors of stacked renames point

Behind a codec that renames keys, the walk of a struct tells its errors by the names of the input;
but the walk of a further codec does not, and where a key has been renamed before, the names that
are told are those in between (`exists_unresolved_paths_of_stacked`). Errors of composed schemas
with renames applied point into the input as long as behind each renaming stands a struct with
nothing renamed before it, or else nothing that raises errors below its own place
(`isSome_resolve?_of_transcode_error`). -/

namespace WireSchema

open Members

/-! ## (1) Places of errors -/

/-- An error that was raised for the value at a path **points inside** the value. -/
def TranscodingError.PointsInside (path : String) (value : Value) (error : TranscodingError) :
    Prop :=
  ∃ segments, error.path = Pointer.extend path segments ∧ (value.descend? segments).isSome

namespace TranscodingError.PointsInside

variable {path : String} {value inner : Value} {error : TranscodingError}

/-- An error at the path itself points inside the value. -/
theorem here (atPath : error.path = path) : error.PointsInside path value :=
  ⟨[], atPath, by cases value <;> rfl⟩

/-- An error that points inside the value of a member points inside the object. -/
theorem member {members : List (String × Value)} {key : String}
    (found : find? members key = some inner)
    (inside : error.PointsInside (Pointer.child path key) inner) :
    error.PointsInside path (.object members) := by
  obtain ⟨segments, atPath, place⟩ := inside
  refine ⟨key :: segments, atPath, ?_⟩
  rw [Value.descend?]
  show ((find? members key).bind fun value => _).isSome
  rw [found]
  exact place

/-- An error that points inside an item points inside the array. -/
theorem item {items : List Value} {position : Nat} (found : items[position]? = some inner)
    (inside : error.PointsInside (Pointer.child path (Pointer.position position)) inner) :
    error.PointsInside path (.array items) := by
  obtain ⟨segments, atPath, place⟩ := inside
  refine ⟨Pointer.position position :: segments, atPath, ?_⟩
  rw [Value.descend?, Pointer.index?_position]
  show (items[position]?.bind fun item => _).isSome
  rw [found]
  exact place

/-- What points inside an output points inside the value that the output traces to. -/
theorem of_tracesTo {output : Value} (traces : output.TracesTo value)
    (distinct : value.HasDistinctKeys) (inside : error.PointsInside path output) :
    error.PointsInside path value := by
  obtain ⟨segments, atPath, place⟩ := inside
  exact ⟨segments, atPath, (traces distinct).2 segments place⟩

/-- A pointer inside a document resolves in it. -/
theorem isSome_resolve? (inside : error.PointsInside "" value) :
    (value.resolve? error.path).isSome := by
  obtain ⟨segments, atPath, place⟩ := inside
  rw [Value.resolve?, atPath, Pointer.segments?_extend]
  exact place

end TranscodingError.PointsInside

namespace Schema

variable {direction : Direction} {path : String} {inputName : String → String} {value : Value}
  {error : TranscodingError}

/-! ## (2) Shallow schemas -/

/-- **A shallow schema** looks at the keys of an object, but not at what stands under them. -/
inductive IsShallow : Schema → Prop
  /-- A leaf. -/
  | leaf (kind : LeafType) : IsShallow (.leaf kind)
  /-- A struct of leaves. -/
  | struct {fields : List (Field Schema)} {index : Option (IndexSignature Schema)}
      (types : ∀ field ∈ fields, ∃ kind, field.type = .leaf kind)
      (indexType : ∀ signature ∈ index, ∃ kind, signature.value = .leaf kind) :
      IsShallow (.struct fields index)
  /-- A renaming between shallow schemas. -/
  | keys {source target : Schema} {map : KeyMap} (ofSource : IsShallow source)
      (ofTarget : IsShallow target) : IsShallow (.codec source target (.keys map))

/-- A key map rejects the value that it is given, and nothing inside it. -/
theorem path_of_run_keys {map : KeyMap}
    (fails : (Conversion.keys map).run direction value = .error error) : error.path = "" := by
  rw [Conversion.run_keys] at fails
  rcases KeyMap.carry_eq_error fails with
    ⟨_, rfl⟩ | ⟨_, _, ⟨_, _, rfl⟩ | ⟨_, _, _, rfl⟩⟩ <;> rfl

/-- **A shallow schema rejects the value** that it is given, and nothing inside it. -/
theorem path_of_isShallow {schema : Schema} (shallow : schema.IsShallow)
    (fails : transcodeAt direction path inputName schema value = .error error) :
    error.path = path := by
  induction shallow generalizing inputName value with
  | leaf kind =>
      rw [transcodeAt] at fails
      cases fails
  | struct types indexType =>
      -- leaves take any value, so nothing fails below the struct
      rcases transcodeAt_struct_eq_error fails with
        ⟨_, rfl⟩ | ⟨members, _, ⟨field, held, ⟨_, _, rfl⟩ | ⟨inner, _, below⟩⟩ |
          ⟨signature, isOpen, member, _, _, below⟩⟩
      · rfl
      · rfl
      · obtain ⟨kind, isLeaf⟩ := types field held
        rw [isLeaf, transcodeAt] at below
        cases below
      · obtain ⟨kind, isLeaf⟩ := indexType signature isOpen
        rw [isLeaf, transcodeAt] at below
        cases below
  | @keys source target map _ _ sourceInduction targetInduction =>
      rcases transcodeAt_codec_eq_error fails with
        below | ⟨near, _, ⟨inner, converts, rfl⟩ | ⟨carried, _, below⟩⟩
      · cases direction
        exacts [targetInduction below, sourceInduction below]
      · exact TranscodingError.path_anchored_of_root (path_of_run_keys converts) path
      · cases direction
        exacts [sourceInduction below, targetInduction below]

/-! ## (3) Renames that are tracked -/

/-- **Renamed keys are tracked**: what stands behind a renaming of keys is shallow, or it is a
struct and no key has been renamed before. -/
def TracksNames (direction : Direction) (schema : Schema) : Prop :=
  ∀ source target map, .codec source target (.keys map) ∈ schema.parts true →
    (farSide source target direction).IsShallow ∨
    (farSide source target direction).fields?.isSome ∧
      (nearSide source target direction).KeepsKeys

/-- Renamed keys that are tracked in a schema are tracked in its parts. -/
theorem TracksNames.mono {schema inner : Schema} (tracks : schema.TracksNames direction)
    (inside : ∀ part, part ∈ inner.parts true → part ∈ schema.parts true) :
    inner.TracksNames direction :=
  fun source target map held => tracks source target map (inside _ held)

/-- The errors of a schema point inside the values that it rejects. -/
def ErrsInside (direction : Direction) (schema : Schema) : Prop :=
  ∀ path value error, value.HasDistinctKeys →
    transcodeAt direction path id schema value = .error error → error.PointsInside path value

/-- The errors of the types in a struct point inside the values that they reject. -/
def TypesErrInside (direction : Direction) (schema : Schema) : Prop :=
  (∀ fields ∈ schema.fields?, ∀ field ∈ fields, field.type.ErrsInside direction) ∧
    ∀ signature ∈ schema.index?, signature.value.ErrsInside direction

/-- A struct whose types err inside their values errs inside its own. -/
theorem errsInside_struct {fields : List (Field Schema)} {index : Option (IndexSignature Schema)}
    (types : (Schema.struct fields index).TypesErrInside direction) :
    (Schema.struct fields index).ErrsInside direction := by
  intro path value error distinct fails
  rcases transcodeAt_struct_eq_error fails with
    ⟨_, rfl⟩ | ⟨members, rfl, ⟨field, held, ⟨_, _, rfl⟩ | ⟨inner, found, below⟩⟩ |
      ⟨signature, isOpen, member, memberHeld, _, below⟩⟩
  · exact .here rfl
  · exact .here rfl
  · exact .member found (types.1 _ rfl field held _ _ _ (distinct.of_find? found) below)
  · have found := find?_of_mem distinct.nodup_keys memberHeld
    exact .member found (types.2 signature isOpen _ _ _ (distinct.of_find? found) below)

/-- A tuple whose types err inside their values errs inside its own. -/
theorem errsInside_tuple {elements : List (Element Schema)} {rest : Option Schema}
    {isReadonly : Bool}
    (slots : ∀ position, (slotType elements rest position).ErrsInside direction) :
    (Schema.tuple elements rest isReadonly).ErrsInside direction := by
  intro path value error distinct fails
  rcases transcodeAt_tuple_eq_error fails with
    ⟨_, rfl⟩ | ⟨items, rfl, ⟨_, rfl⟩ | ⟨position, item, found, below⟩⟩
  · exact .here rfl
  · exact .here rfl
  · exact .item found (slots position _ _ _ (distinct.of_getElem? found) below)

/-- A leaf errs at the value itself. -/
theorem errsInside_leaf (kind : LeafType) : (Schema.leaf kind).ErrsInside direction := by
  intro path value error _ fails
  rw [transcodeAt] at fails
  cases fails

/-- A codec between leaves rejects the value that it is given. -/
theorem errsInside_codec_leaf {source target : LeafType} {conversion : Conversion}
    (atRoot : ∀ value error, conversion.run direction value = .error error → error.path = "") :
    (Schema.codec (.leaf source) (.leaf target) conversion).ErrsInside direction := by
  intro path value error _ fails
  rw [transcodeAt_codec_leaf] at fails
  obtain ⟨inner, converts, rfl⟩ := mapError_eq_error_iff.mp fails
  exact .here (TranscodingError.path_anchored_of_root (atRoot _ _ converts) path)

/-- **Behind a renaming** the walk of a struct tells its errors by the names of the input. -/
theorem pointsInside_of_far {map : KeyMap} (apart : map.TellsApart) {fields : List (Field Schema)}
    {index : Option (IndexSignature Schema)} {source : Side}
    (names : (Schema.struct fields index).NamesFields map source.opposite)
    (types : (Schema.struct fields index).TypesErrInside direction) {near carried : Value}
    (distinct : near.HasDistinctKeys) (carries : map.carry source near = .ok carried)
    (fails : transcodeAt direction path (Schema.inputName (.keys map) source)
      (.struct fields index) carried = .error error) : error.PointsInside path near := by
  obtain ⟨members, outputs, rfl, translated, rfl⟩ := (KeyMap.carry_eq_ok_iff _ _ _ _).mp carries
  have origin := fun {key inner} (held : (key, inner) ∈ ofList outputs) =>
    KeyMap.find?_of_mem_translated apart distinct.nodup_keys translated (mem_of_mem_ofList held)
  rcases transcodeAt_struct_eq_error fails with
    ⟨_, rfl⟩ | ⟨_, ⟨⟩, ⟨field, held, ⟨_, _, rfl⟩ | ⟨inner, found, below⟩⟩ |
      ⟨signature, isOpen, ⟨key, inner⟩, memberHeld, undeclared, below⟩⟩
  · exact .here rfl
  · exact .here rfl
  · have before := origin (mem_of_find? found)
    exact .member before (types.1 _ rfl field held _ _ _ (distinct.of_find? before) below)
  · -- an undeclared key stands for no other one
    have same : map.keyOn? key source = none := by
      cases stands : map.keyOn? key source with
      | none => rfl
      | some other =>
          obtain ⟨pair, pairHeld, rfl, _⟩ := (KeyMap.keyOn?_eq_some_iff apart).mp stands
          exact absurd (names _ rfl pair pairHeld) undeclared
    have before := origin memberHeld
    rw [same] at before
    exact .member before (types.2 signature isOpen _ _ _ (distinct.of_find? before) below)

/-- The errors of a codec that tracks renamed keys point inside the values that it rejects. -/
theorem errsInside_keys {source target : Schema} {map : KeyMap}
    (own : (Schema.codec source target (.keys map)).HasOwnConversions)
    (tracks : (Schema.codec source target (.keys map)).TracksNames direction)
    (nearErrs : (nearSide source target direction).ErrsInside direction)
    (farTypes : (farSide source target direction).TypesErrInside direction) :
    (Schema.codec source target (.keys map)).ErrsInside direction := by
  intro path value error distinct fails
  rcases transcodeAt_codec_eq_error fails with
    below | ⟨near, walks, ⟨inner, converts, rfl⟩ | ⟨carried, converts, below⟩⟩
  · exact nearErrs _ _ _ distinct below
  · exact .here (TranscodingError.path_anchored_of_root (path_of_run_keys converts) path)
  · rcases tracks source target map (mem_parts_self _) with shallow | ⟨isStruct, plain⟩
    · exact .here (path_of_isShallow shallow below)
    · cases own with
      | keys ofSource ofTarget apart namesSource namesTarget =>
          have nearOwn : (nearSide source target direction).HasOwnConversions :=
            nearSide_induction ofSource ofTarget direction
          have farNames :
              (farSide source target direction).NamesFields map direction.inputSide.opposite := by
            cases direction
            exacts [namesSource, namesTarget]
          -- nothing has been renamed so far, so that the places are those of the input
          have gives := toOption_eq_some_iff.mpr walks
          rw [toOption_transcodeAt] at gives
          have traces := outputsTrace_of_keepsKeys nearOwn plain value near gives
          rw [Conversion.run_keys] at converts
          cases far : farSide source target direction with
          | struct fields index =>
              rw [far] at farTypes farNames below
              exact .of_tracesTo traces distinct
                (pointsInside_of_far apart farNames farTypes (traces distinct).1 converts below)
          | _ =>
              rw [far] at isStruct
              cases isStruct

/-- **Errors point inside** the values that a schema rejects, where renamed keys are tracked. -/
theorem errsInside_of_tracksNames {schema : Schema} (own : schema.HasOwnConversions)
    (tracks : schema.TracksNames direction) :
    schema.ErrsInside direction ∧ schema.TypesErrInside direction := by
  -- the types of structs are carried along, since a tracked codec enters them past the struct
  have noTypes : ∀ {schema : Schema}, schema.fields? = none → schema.index? = none →
      schema.TypesErrInside direction := by
    intro schema noFields noIndex
    constructor
    · rw [noFields]
      exact nofun
    · rw [noIndex]
      exact nofun
  induction own with
  | leaf kind => exact ⟨errsInside_leaf kind, noTypes rfl rfl⟩
  | @struct fields index _ _ typesInduction indexInduction =>
      have types : (Schema.struct fields index).TypesErrInside direction := by
        constructor
        · rintro _ ⟨⟩ field held
          exact (typesInduction field held (tracks.mono fun _ => mem_parts_of_field held)).1
        · intro signature held
          exact (indexInduction signature held (tracks.mono fun _ => mem_parts_of_index held)).1
      exact ⟨errsInside_struct types, types⟩
  | @tuple elements rest _ _ _ typesInduction restInduction =>
      refine ⟨errsInside_tuple ?_, noTypes rfl rfl⟩
      refine slotType_induction (motive := fun type => type.ErrsInside direction) ?_ ?_ ?_
      · intro element held
        exact (typesInduction element held (tracks.mono fun _ => mem_parts_of_element held)).1
      · intro type held
        exact (restInduction type held (tracks.mono fun _ => mem_parts_of_rest held)).1
      · exact errsInside_leaf .unknown
  | timestampText =>
      refine ⟨errsInside_codec_leaf fun value error fails => ?_, noTypes rfl rfl⟩
      exact (isTrueOf_timestampText fails).1
  | booleanText truthy falsy =>
      refine ⟨errsInside_codec_leaf fun value error fails => ?_, noTypes rfl rfl⟩
      exact (isTrueOf_booleanText fails).1
  | @keys source target map ofSource ofTarget apart namesSource namesTarget sourceInduction
      targetInduction =>
      have atSource := sourceInduction (tracks.mono fun _ => mem_parts_of_source)
      have atTarget := targetInduction (tracks.mono fun _ => mem_parts_of_target)
      refine ⟨errsInside_keys (.keys ofSource ofTarget apart namesSource namesTarget) tracks ?_ ?_,
        noTypes rfl rfl⟩
      · exact nearSide_induction atSource.1 atTarget.1 direction
      · exact farSide_induction atSource.2 atTarget.2 direction

/-! ## (4) Composed schemas -/

/-- **A composed schema**: made of leaves, of structs whose fields have distinct names, of tuples,
of the two codecs that documents can name, and of codecs between two structs whose conversion
carries the names of the fields of the target to the names of the fields of the source. -/
inductive IsComposed : Schema → Prop
  /-- A leaf. -/
  | leaf (kind : LeafType) : IsComposed (.leaf kind)
  /-- A struct with distinct names. -/
  | struct {fields : List (Field Schema)} {index : Option (IndexSignature Schema)}
      (names : (fields.map Field.name).Nodup) (types : ∀ field ∈ fields, IsComposed field.type)
      (indexType : ∀ signature ∈ index, IsComposed signature.value) :
      IsComposed (.struct fields index)
  /-- A tuple. -/
  | tuple {elements : List (Element Schema)} {rest : Option Schema} {isReadonly : Bool}
      (types : ∀ element ∈ elements, IsComposed element.type)
      (restType : ∀ type ∈ rest, IsComposed type) : IsComposed (.tuple elements rest isReadonly)
  /-- Timestamps as texts. -/
  | timestampText : IsComposed timestampText
  /-- Truth values as texts. -/
  | booleanText (truthy falsy : String) : IsComposed (booleanText truthy falsy)
  /-- A renaming between the fields of two structs. -/
  | keys {sourceFields targetFields : List (Field Schema)}
      {sourceIndex targetIndex : Option (IndexSignature Schema)} {map : KeyMap}
      (ofSource : IsComposed (.struct sourceFields sourceIndex))
      (ofTarget : IsComposed (.struct targetFields targetIndex))
      (encodedNames : (map.pairs.map (KeyPair.on · .encoded)).Perm (sourceFields.map Field.name))
      (decodedNames : (map.pairs.map (KeyPair.on · .decoded)).Perm (targetFields.map Field.name)) :
      IsComposed (.codec (.struct sourceFields sourceIndex) (.struct targetFields targetIndex)
        (.keys map))

/-- A composed struct has fields of distinct names. -/
theorem IsComposed.nodup_names {fields : List (Field Schema)}
    {index : Option (IndexSignature Schema)}
    (composed : (Schema.struct fields index).IsComposed) : (fields.map Field.name).Nodup := by
  cases composed with
  | struct names _ _ => exact names

section Composed

variable {fields sourceFields targetFields : List (Field Schema)}
  {index sourceIndex targetIndex : Option (IndexSignature Schema)} {map : KeyMap}

/-- A key map between the distinct names of two structs tells its fields apart. -/
theorem tellsApart_of_perm
    (encodedNames : (map.pairs.map (KeyPair.on · .encoded)).Perm (sourceFields.map Field.name))
    (decodedNames : (map.pairs.map (KeyPair.on · .decoded)).Perm (targetFields.map Field.name))
    (sourceNames : (sourceFields.map Field.name).Nodup)
    (targetNames : (targetFields.map Field.name).Nodup) : map.TellsApart := by
  intro side
  cases side with
  | encoded => exact encodedNames.nodup_iff.mpr sourceNames
  | decoded => exact decodedNames.nodup_iff.mpr targetNames

/-- A key map whose keys are the names of the fields names them, in whichever order. -/
theorem namesFields_of_perm {side : Side}
    (names : (map.pairs.map (KeyPair.on · side)).Perm (fields.map Field.name)) :
    (Schema.struct fields index).NamesFields map side := by
  rintro _ ⟨⟩ pair held
  exact names.mem_iff.mp (List.mem_map_of_mem held)

/-- A struct with its renames applied is a codec, or it has the fields that it had. -/
theorem namesFields_renamedStruct {side : Side}
    (names : (Schema.struct fields index).NamesFields map side) :
    (renamedStruct fields index).NamesFields map side := by
  intro renamed isStruct pair held
  rw [renamedStruct] at isStruct
  split at isStruct
  · cases isStruct
    rw [List.map_map]
    exact names fields rfl pair held
  · cases isStruct

/-- The key map of a struct has the names of its fields. -/
theorem namesFields_ofStruct {renames : Renames} {isOpen : Bool} {side : Side}
    {retype : Field Schema → Field Schema}
    (named : ∀ field, (retype field).name = renames.nameOn side field.name) :
    (Schema.struct (fields.map retype) index).NamesFields (KeyMap.ofStruct renames fields isOpen)
      side := by
  rintro _ ⟨⟩ pair held
  have name : pair.on side ∈ (KeyMap.ofStruct renames fields isOpen).pairs.map
      (KeyPair.on · side) := List.mem_map_of_mem held
  rw [KeyMap.map_on_ofStruct] at name
  rw [List.map_map]
  simpa [named] using name

/-- The codec that stands for a renamed struct renames its fields, and the conversions inside are
those of its types. -/
theorem hasOwnConversions_renameCodec {renames : Renames}
    (distinct : (fields.map fun field => renames.encodedName field.name).Nodup)
    (types : ∀ field ∈ fields, field.type.HasOwnConversions)
    (indexType : ∀ signature ∈ index, signature.value.HasOwnConversions) :
    (renameCodec renames fields index).HasOwnConversions := by
  rw [renameCodec_eq]
  refine .keys (.struct ?_ ?_) (.struct ?_ indexType) (tellsApart_ofStruct distinct _)
    (namesFields_ofStruct fun _ => rfl) (namesFields_ofStruct fun _ => rfl)
  · rw [List.forall_mem_map]
    exact fun _ _ => .leaf .unknown
  · intro signature held
    obtain ⟨_, _, rfl⟩ := Option.map_eq_some_iff.mp held
    exact .leaf .unknown
  · rw [List.forall_mem_map]
    exact types

end Composed

/-- A composed schema has no conversions from elsewhere. -/
theorem IsComposed.hasOwnConversions {schema : Schema} (composed : schema.IsComposed) :
    schema.HasOwnConversions := by
  induction composed with
  | leaf kind => exact .leaf kind
  | struct _ _ _ typesInduction indexInduction => exact .struct typesInduction indexInduction
  | tuple _ _ typesInduction restInduction => exact .tuple typesInduction restInduction
  | timestampText => exact .timestampText
  | booleanText truthy falsy => exact .booleanText truthy falsy
  | keys ofSource ofTarget encodedNames decodedNames sourceInduction targetInduction =>
      exact .keys sourceInduction targetInduction
        (tellsApart_of_perm encodedNames decodedNames ofSource.nodup_names ofTarget.nodup_names)
        (namesFields_of_perm encodedNames) (namesFields_of_perm decodedNames)

/-- Applying renames brings in no conversions but renamings of fields. -/
theorem IsComposed.hasOwnConversions_renamed {schema applied : Schema}
    (composed : schema.IsComposed) (applies : schema.applyRenames = .ok applied) :
    schema.renamed.HasOwnConversions := by
  induction composed generalizing applied with
  | leaf kind => exact .leaf kind
  | @struct fields index _ _ _ typesInduction indexInduction =>
      obtain ⟨eachField, eachIndex, encodedNames, shape⟩ := applyRenames_struct_eq_ok applies
      have types : ∀ field ∈ fields.map renamedField, field.type.HasOwnConversions := by
        rw [List.forall_mem_map]
        intro field held
        exact typesInduction field held (eachField field held)
      have indexType : ∀ signature ∈ index.map renamedIndex, signature.value.HasOwnConversions := by
        intro _ held
        obtain ⟨signature, isOpen, rfl⟩ := Option.map_eq_some_iff.mp held
        exact indexInduction signature isOpen (eachIndex signature isOpen)
      rw [renamed_of_applyRenames applies, shape, renamedStruct]
      cases plain : (Renames.ofFields fields).isEmpty with
      | true => exact .struct types indexType
      | false =>
          -- the renamed struct is a codec of its own key map
          refine hasOwnConversions_renameCodec ?_ types indexType
          rw [List.map_map]
          exact encodedNames plain
  | @tuple elements rest _ _ _ typesInduction restInduction =>
      obtain ⟨eachElement, eachRest, shape⟩ := applyRenames_tuple_eq_ok applies
      rw [renamed_of_applyRenames applies, shape]
      refine .tuple ?_ ?_
      · rw [List.forall_mem_map]
        intro element held
        exact typesInduction element held (eachElement element held)
      · intro _ held
        obtain ⟨type, isRest, rfl⟩ := Option.map_eq_some_iff.mp held
        exact restInduction type isRest (eachRest type isRest)
  | timestampText => exact .timestampText
  | booleanText truthy falsy => exact .booleanText truthy falsy
  | @keys sourceFields targetFields sourceIndex targetIndex map ofSource ofTarget encodedNames
      decodedNames sourceInduction _ =>
      obtain ⟨appliesSource, shape⟩ := applyRenames_codec_eq_ok applies
      have sourceShape := (applyRenames_struct_eq_ok appliesSource).2.2.2
      rw [renamed_of_applyRenames applies, shape]
      refine .keys (sourceInduction appliesSource) ofTarget.hasOwnConversions
        (tellsApart_of_perm encodedNames decodedNames ofSource.nodup_names ofTarget.nodup_names) ?_
        (namesFields_of_perm decodedNames)
      -- the names on the encoded side are those of the renamed source, which is a codec by now
      rw [sourceShape]
      exact namesFields_renamedStruct (namesFields_of_perm encodedNames)

/-- **Errors of composed schemas resolve in the input**, where renamed keys are tracked. -/
theorem isSome_resolve?_of_transcode_error {schema applied : Schema} (composed : schema.IsComposed)
    (applies : schema.applyRenames = .ok applied) {direction : Direction}
    (tracks : applied.TracksNames direction) {value : Value} (distinct : value.HasDistinctKeys)
    {error : TranscodingError} (fails : applied.transcode direction value = .error error) :
    (value.resolve? error.path).isSome := by
  have own := composed.hasOwnConversions_renamed applies
  rw [renamed_of_applyRenames applies] at own
  have inside := (errsInside_of_tracksNames own tracks).1
  exact (inside "" value error distinct fails).isSome_resolve?

/-- An order whose lines are renamed inside a renamed field: the error is told by the names of the
input at both depths. -/
theorem isSome_resolve?_of_transcode_error_order :
    let line : Schema := .codec
      (.struct [⟨"gift", booleanText "Y" "N", false, false, none, []⟩] none)
      (.struct [⟨"isGift", unknown, false, false, none, []⟩] none)
      (.keys ⟨[⟨"isGift", "gift", false⟩], false⟩)
    let order : Schema := .struct [⟨"line", line, false, false, some "item", []⟩] none
    let value : Value := .object [("line", .object [("isGift", .string "maybe")])]
    let error : TranscodingError := ⟨"/line/isGift", .wrongKind "boolean" "string"⟩
    order.IsComposed ∧ order.applyRenames = .ok order.renamed ∧
      order.renamed.TracksNames .encode ∧ value.HasDistinctKeys ∧
      order.renamed.transcode .encode value = .error error ∧
      (value.resolve? error.path).isSome := by
  intro line order value error
  have composed : order.IsComposed := by
    refine .struct (by simp) ?_ nofun
    rw [List.forall_mem_singleton]
    refine .keys (.struct (by simp) ?_ nofun) (.struct (by simp) ?_ nofun) (.refl _) (.refl _)
    · rw [List.forall_mem_singleton]
      exact .booleanText "Y" "N"
    · rw [List.forall_mem_singleton]
      exact .leaf .unknown
  have applies : order.applyRenames = .ok order.renamed := rfl
  have tracks : order.renamed.TracksNames .encode := by
    intro source target map held
    have shape : order.renamed = renameCodec [("line", "item")]
      [⟨"line", line, false, false, some "item", []⟩] none := rfl
    rw [shape] at held
    simp [renameCodec, encodedField, line, parts, partsOfFields, partsOfIndex, booleanText,
      unknown] at held
    rcases held with ⟨rfl, rfl, rfl⟩ | ⟨rfl, rfl, rfl⟩
    · -- the source of a renamed struct is shallow
      refine Or.inl (.struct ?_ nofun)
      rw [List.forall_mem_singleton]
      exact ⟨.unknown, rfl⟩
    · refine Or.inr ⟨rfl, fun source target conversion held => ?_⟩
      simp [nearSide, parts, partsOfFields, partsOfIndex] at held
  have distinct : value.HasDistinctKeys := by
    simp [value, Value.HasDistinctKeys, Value.MembersHaveDistinctKeys, keys]
  have fails : order.renamed.transcode .encode value = .error error := by decide +kernel
  exact ⟨composed, applies, tracks, distinct, fails,
    isSome_resolve?_of_transcode_error composed applies tracks distinct fails⟩

/-- **Behind stacked renames errors are told by the names in between**: a field that is called `d`
on the decoded side, `w` on the encoded side and `m` between the two conversions. In either
direction the pointer of the error leads nowhere. -/
theorem exists_unresolved_paths_of_stacked :
    let stacked : Schema → Schema → Schema := fun written read => .codec
      (.struct [⟨"m", written, false, false, some "w", []⟩] none)
      (.struct [⟨"d", read, false, false, none, []⟩] none)
      (.keys ⟨[⟨"d", "m", false⟩], false⟩)
    let encoding := stacked (booleanText "Y" "N") unknown
    let decoding := stacked unknown (booleanText "Y" "N")
    let value : Value := .object [("d", .string "maybe")]
    let written : Value := .object [("w", .string "maybe")]
    (encoding.IsComposed ∧ encoding.applyRenames = .ok encoding.renamed ∧ value.HasDistinctKeys ∧
      encoding.renamed.transcode .encode value = .error ⟨"/m", .wrongKind "boolean" "string"⟩ ∧
      value.resolve? "/m" = none) ∧
    decoding.IsComposed ∧ decoding.applyRenames = .ok decoding.renamed ∧
      written.HasDistinctKeys ∧
      decoding.renamed.transcode .decode written = .error ⟨"/m", .conversionFailed
        "boolean-from-literal" "expected `Y` or `N`, found `maybe`"⟩ ∧
      written.resolve? "/m" = none := by
  intro stacked encoding decoding value written
  have composed : ∀ {source target : Schema}, source.IsComposed → target.IsComposed →
      (stacked source target).IsComposed := by
    intro source target ofSource ofTarget
    refine .keys (.struct (by simp) ?_ nofun) (.struct (by simp) ?_ nofun) (.refl _) (.refl _)
    · rw [List.forall_mem_singleton]
      exact ofSource
    · rw [List.forall_mem_singleton]
      exact ofTarget
  have distinct : ∀ key, (Value.object [(key, .string "maybe")]).HasDistinctKeys := by
    intro key
    simp [Value.HasDistinctKeys, Value.MembersHaveDistinctKeys, keys]
  refine ⟨⟨?_, rfl, distinct "d", ?_, ?_⟩, ?_, rfl, distinct "w", ?_, ?_⟩
  · exact composed (.booleanText "Y" "N") (.leaf .unknown)
  · rfl
  · rfl
  · exact composed (.leaf .unknown) (.booleanText "Y" "N")
  · rfl
  · rfl

end Schema

end WireSchema

import WireSchema.Proofs.Pointer
import WireSchema.Proofs.Renaming.Failing
import WireSchema.Proofs.Renaming.Meeting
import WireSchema.Proofs.Renaming.Reshaping

/-! # Where errors point

When a value does not go through a documented schema with its renames applied, the error points to a
place inside the value, and what it says is true of what stands there. The place is found by reading
the value along the schema with the names of the input, and resolving the pointer of the error finds
the same place. -/

namespace WireSchema

open Members

namespace Schema

/-! ## (1) Places -/

/-- **The place** that segments lead to when a value is read along a schema with the names of a
side: the schema that stands there, and the value. -/
def locate? (side : Side) : Schema → Value → List String → Option (Schema × Value)
  | schema, value, [] => some (schema, value)
  | .struct fields index, .object members, key :: segments => do
      let inner ← find? members key
      locate? side (memberType side fields index key) inner segments
  | .tuple elements rest _, .array items, segment :: segments => do
      let position ← Pointer.index? segment
      let item ← items[position]?
      locate? side (slotType elements rest position) item segments
  | _, _, _ :: _ => none

section Locate

variable {side : Side} {fields : List (Field Schema)} {index : Option (IndexSignature Schema)}
  {members : List (String × Value)} {inner : Value}

@[simp] theorem locate?_nil (schema : Schema) (value : Value) :
    schema.locate? side value [] = some (schema, value) := by
  cases schema <;> rfl

/-- What stands under the name of a field is read along its type. -/
theorem locate?_field (distinct : (namesOn side fields).Nodup) {field : Field Schema}
    (held : field ∈ fields)
    (found : find? members ((Renames.ofFields fields).nameOn side field.name) = some inner)
    (segments : List String) :
    (Schema.struct fields index).locate? side (.object members)
        ((Renames.ofFields fields).nameOn side field.name :: segments) =
      field.type.locate? side inner segments := by
  rw [locate?, found, memberType_of_mem distinct held]
  rfl

/-- What stands under an undeclared key is read along the index type. -/
theorem locate?_other {signature : IndexSignature Schema} (isOpen : signature ∈ index)
    {key : String} (undeclared : key ∉ namesOn side fields) (found : find? members key = some inner)
    (segments : List String) :
    (Schema.struct fields index).locate? side (.object members) (key :: segments) =
      signature.value.locate? side inner segments := by
  cases isOpen
  rw [locate?, found, memberType_of_notMem undeclared]
  rfl

/-- An item is read along the type of its slot. -/
theorem locate?_item {items : List Value} {position : Nat} (found : items[position]? = some inner)
    (elements : List (Element Schema)) (rest : Option Schema) (isReadonly : Bool)
    (segments : List String) :
    (Schema.tuple elements rest isReadonly).locate? side (.array items)
        (Pointer.position position :: segments) =
      (slotType elements rest position).locate? side inner segments := by
  rw [locate?, Pointer.index?_position]
  show (items[position]?.bind fun item => _) = _
  rw [found]
  rfl

/-- Reading a value along a schema leads where the segments lead without it. -/
theorem descend?_of_locate? {schema type : Schema} {value : Value} {segments : List String}
    (located : schema.locate? side value segments = some (type, inner)) :
    value.descend? segments = some inner := by
  induction segments generalizing schema value with
  | nil =>
      rw [locate?_nil] at located
      cases located
      cases inner <;> rfl
  | cons segment segments induction =>
      cases schema with
      | struct fields index =>
          cases value with
          | object members =>
              obtain ⟨member, found, below⟩ := Option.bind_eq_some_iff.mp located
              exact Option.bind_eq_some_iff.mpr ⟨member, found, induction below⟩
          | _ => cases located
      | tuple elements rest isReadonly =>
          cases value with
          | array items =>
              obtain ⟨position, isPosition, inside⟩ := Option.bind_eq_some_iff.mp located
              obtain ⟨item, found, below⟩ := Option.bind_eq_some_iff.mp inside
              exact Option.bind_eq_some_iff.mpr ⟨position, isPosition,
                Option.bind_eq_some_iff.mpr ⟨item, found, induction below⟩⟩
          | _ => cases located
      | leaf kind => cases located
      | codec source target conversion => cases located

end Locate

end Schema

/-! ## (2) Causes -/

/-- **What an error says is true** of the value at its place and of the schema that stands there. -/
def TranscodingError.Cause.IsTrueOf (direction : Direction) (schema : Schema) (value : Value) :
    TranscodingError.Cause → Prop
  -- a required field has this name on the input side, and the object does not hold it
  | .missingKey key side =>
      side = direction.inputSide ∧ ∃ fields index members,
        schema = .struct fields index ∧ value = .object members ∧ key ∉ keys members ∧
        ∃ field ∈ fields, field.isOptional = false ∧
          (Renames.ofFields fields).nameOn side field.name = key
  | .wrongKind expected found => value.kind = found ∧ found ≠ expected
  -- there are too few items for the required elements, or too many for all of them
  | .wrongArity _ found =>
      ∃ elements rest isReadonly items,
        schema = .tuple elements rest isReadonly ∧ value = .array items ∧ items.length = found ∧
        (found < Schema.requiredCount elements ∨ rest = none ∧ elements.length < found)
  | .keyCollision key =>
      ∃ fields index members,
        schema = .struct fields index ∧ value = .object members ∧ key ∈ keys members ∧
        key ∉ namesOn direction.inputSide fields ∧ key ∈ namesOn direction.inputSide.opposite fields
  | .conversionFailed name message =>
      ∃ source target conversion text,
        schema = .codec source target conversion ∧ value = .string text ∧ conversion.name = name ∧
        conversion.run direction value = .error ⟨"", .conversionFailed name message⟩

namespace Schema

/-- An error that was raised for the value at a path points into this value and tells the truth. -/
def PointsInto (direction : Direction) (path : String) (schema : Schema) (value : Value)
    (error : TranscodingError) : Prop :=
  ∃ segments type inner, error.path = Pointer.extend path segments ∧
    schema.locate? direction.inputSide value segments = some (type, inner) ∧
    error.cause.IsTrueOf direction type inner

section PointsInto

variable {direction : Direction} {path : String} {fields : List (Field Schema)}
  {index : Option (IndexSignature Schema)} {members : List (String × Value)}
  {elements : List (Element Schema)} {rest : Option Schema} {isReadonly : Bool}
  {items : List Value} {value inner : Value} {error : TranscodingError}

/-- A true error that stands at the path itself points into the value. -/
theorem PointsInto.here {schema : Schema} {cause : TranscodingError.Cause}
    (isTrue : cause.IsTrueOf direction schema value) :
    PointsInto direction path schema value ⟨path, cause⟩ :=
  ⟨[], schema, value, rfl, locate?_nil schema value, isTrue⟩

/-- An error that points into the value of a declared member points into the object. -/
theorem PointsInto.field (distinct : (namesOn direction.inputSide fields).Nodup)
    {field : Field Schema} (held : field ∈ fields)
    (found : find? members ((Renames.ofFields fields).nameOn direction.inputSide field.name) =
      some inner)
    (points : PointsInto direction (Pointer.child path
      ((Renames.ofFields fields).nameOn direction.inputSide field.name)) field.type inner error) :
    PointsInto direction path (.struct fields index) (.object members) error := by
  obtain ⟨segments, type, place, atPath, located, isTrue⟩ := points
  refine ⟨_ :: segments, type, place, atPath, ?_, isTrue⟩
  rw [locate?_field distinct held found, located]

/-- An error that points into the value of an undeclared member points into an open object. -/
theorem PointsInto.other {signature : IndexSignature Schema} (isOpen : signature ∈ index)
    {key : String} (undeclared : key ∉ namesOn direction.inputSide fields)
    (found : find? members key = some inner)
    (points : PointsInto direction (Pointer.child path key) signature.value inner error) :
    PointsInto direction path (.struct fields index) (.object members) error := by
  obtain ⟨segments, type, place, atPath, located, isTrue⟩ := points
  refine ⟨key :: segments, type, place, atPath, ?_, isTrue⟩
  rw [locate?_other isOpen undeclared found, located]

/-- An error that points into an item points into the array. -/
theorem PointsInto.item {position : Nat} (found : items[position]? = some inner)
    (points : PointsInto direction (Pointer.child path (Pointer.position position))
      (slotType elements rest position) inner error) :
    PointsInto direction path (.tuple elements rest isReadonly) (.array items) error := by
  obtain ⟨segments, type, place, atPath, located, isTrue⟩ := points
  refine ⟨Pointer.position position :: segments, type, place, atPath, ?_, isTrue⟩
  rw [locate?_item found, located]

/-- Whatever error a schema with its renames applied raises for a value points into the value and
tells the truth. -/
def ErrorsPoint (direction : Direction) (schema : Schema) (value : Value) : Prop :=
  ∀ path error, transcodeAt direction path id schema.renamed value = .error error →
    PointsInto direction path schema value error

/-! ## (3) Each kind of schema -/

/-- The error of a leaf stands at the leaf, where the value is of another kind. -/
theorem errorsPoint_leaf (kind : LeafType) : (Schema.leaf kind).ErrorsPoint direction value := by
  intro path error fails
  rw [renamed_leaf, transcodeAt] at fails
  cases fails

/-- A struct fails at an object with an error that points into it, where its types do. -/
theorem errorsPoint_object {applied : Schema} (names : (fields.map Field.name).Nodup)
    (applies : (Schema.struct fields index).applyRenames = .ok applied)
    (unique : (keys members).Nodup)
    (declaredPoint : ∀ field ∈ fields, ∀ key inner, find? members key = some inner →
      field.type.ErrorsPoint direction inner)
    (othersPoint : ∀ signature ∈ index, ∀ key inner, find? members key = some inner →
      signature.value.ErrorsPoint direction inner) :
    (Schema.struct fields index).ErrorsPoint direction (.object members) := by
  intro path error fails
  have distinct := nodup_namesOn names applies direction.inputSide
  have failure := structFailure_of_transcodeAt names (applyRenames_eq_renamed applies)
    (by rintro _ ⟨⟩; exact unique) fails
  cases failure with
  | wrongKind other => cases other
  | missingKey held required absent =>
      exact .here ⟨rfl, _, _, _, rfl, rfl, (find?_eq_none_iff _ _).mp absent, _, held, required,
        rfl⟩
  | keyCollision _ held undeclared declared =>
      exact .here ⟨_, _, _, rfl, rfl, held, undeclared, declared⟩
  | field held found fails =>
      exact .field distinct held found (declaredPoint _ held _ _ found _ _ fails)
  | other isOpen undeclared held fails =>
      have found := find?_of_mem unique held
      exact .other isOpen undeclared found (othersPoint _ isOpen _ _ found _ _ fails)

/-- The error of a struct at a value that is no object stands at the value itself. -/
theorem errorsPoint_struct_of_not_object {applied : Schema}
    (applies : (Schema.struct fields index).applyRenames = .ok applied)
    (other : value.members? = none) :
    (Schema.struct fields index).ErrorsPoint direction value := by
  intro path error fails
  rw [transcodeAt_renamed_struct_of_not_object applies other] at fails
  cases fails
  refine .here ⟨rfl, ?_⟩
  cases value with
  | object members => cases other
  | _ => simp [Value.kind]

/-- A number of items that a tuple does not admit is too small or too large. -/
theorem admitsArity_eq_false_iff {count : Nat} :
    admitsArity elements rest.isSome count = false ↔
      count < requiredCount elements ∨ rest = none ∧ elements.length < count := by
  rw [admitsArity, Bool.and_eq_false_iff, Bool.or_eq_false_iff, decide_eq_false_iff_not,
    decide_eq_false_iff_not, Nat.not_le, Nat.not_le, Option.isSome_eq_false_iff,
    Option.isNone_iff_eq_none]

/-- A tuple fails at an array with an error that points into it, where its slots do. -/
theorem errorsPoint_array {applied : Schema}
    (applies : (Schema.tuple elements rest isReadonly).applyRenames = .ok applied)
    (slotsPoint : ∀ (position : Nat) inner, items[position]? = some inner →
      (slotType elements rest position).ErrorsPoint direction inner) :
    (Schema.tuple elements rest isReadonly).ErrorsPoint direction (.array items) := by
  intro path error fails
  obtain ⟨_, _, shape⟩ := applyRenames_tuple_eq_ok applies
  rw [renamed_of_applyRenames applies, shape] at fails
  rcases transcodeAt_tuple_eq_error fails with
    ⟨other, _⟩ | ⟨_, ⟨⟩, ⟨unfit, rfl⟩ | ⟨position, item, found, below⟩⟩
  · cases other
  · rw [admitsArity_renamed] at unfit
    exact .here ⟨elements, rest, isReadonly, items, rfl, rfl, rfl,
      admitsArity_eq_false_iff.mp unfit⟩
  · rw [slotType_renamed] at below
    exact .item found (slotsPoint position item found _ _ below)

/-- The error of a tuple at a value that is no array stands at the value itself. -/
theorem errorsPoint_tuple_of_not_array {applied : Schema}
    (applies : (Schema.tuple elements rest isReadonly).applyRenames = .ok applied)
    (other : value.items? = none) :
    (Schema.tuple elements rest isReadonly).ErrorsPoint direction value := by
  intro path error fails
  obtain ⟨_, _, shape⟩ := applyRenames_tuple_eq_ok applies
  rw [renamed_of_applyRenames applies, shape,
    transcodeAt_tuple_of_not_array _ _ _ _ _ _ other] at fails
  cases fails
  refine .here ⟨rfl, ?_⟩
  cases value with
  | array items => cases other
  | _ => simp [Value.kind]

/-- A text that denotes no timestamp is rejected where it stands. -/
theorem exists_message_of_readTimestamp {text : String}
    (fails : Conversion.readTimestamp text = .error error) :
    ∃ message, error = ⟨"", .conversionFailed Conversion.timestampText.name message⟩ := by
  rw [Conversion.readTimestamp] at fails
  cases denotes : Timestamp.parse text with
  | ok timestamp =>
      rw [denotes] at fails
      cases fails
  | error problem =>
      rw [denotes] at fails
      cases fails
      exact ⟨_, rfl⟩

/-- What the conversion of timestamps says of a value that it rejects is true. -/
theorem isTrueOf_timestampText
    (fails : Conversion.timestampText.run direction value = .error error) :
    error.path = "" ∧ error.cause.IsTrueOf direction timestampText value := by
  cases direction with
  | encode =>
      cases value with
      | date timestamp => cases fails
      | string text =>
          obtain ⟨message, rfl⟩ := exists_message_of_readTimestamp (map_eq_error_iff.mp fails)
          exact ⟨rfl, _, _, _, text, rfl, rfl, rfl, fails⟩
      | _ =>
          cases fails
          exact ⟨rfl, rfl, by simp [Value.kind]⟩
  | decode =>
      cases value with
      | string text =>
          obtain ⟨message, rfl⟩ := exists_message_of_readTimestamp (map_eq_error_iff.mp fails)
          exact ⟨rfl, _, _, _, text, rfl, rfl, rfl, fails⟩
      | _ =>
          cases fails
          exact ⟨rfl, rfl, by simp [Value.kind]⟩

/-- A text that stands for no truth value is rejected where it stands. -/
theorem exists_message_of_decodeBoolean {truthy falsy text : String}
    (fails : Conversion.decodeBoolean truthy falsy (.string text) = .error error) :
    ∃ message, error =
      ⟨"", .conversionFailed (Conversion.booleanText truthy falsy).name message⟩ := by
  rw [Conversion.decodeBoolean] at fails
  by_cases isTruthy : text = truthy
  · rw [if_pos isTruthy] at fails
    cases fails
  · by_cases isFalsy : text = falsy
    · rw [if_neg isTruthy, if_pos isFalsy] at fails
      cases fails
    · rw [if_neg isTruthy, if_neg isFalsy] at fails
      cases fails
      exact ⟨_, rfl⟩

/-- What the conversion of truth values says of a value that it rejects is true. -/
theorem isTrueOf_booleanText {truthy falsy : String}
    (fails : (Conversion.booleanText truthy falsy).run direction value = .error error) :
    error.path = "" ∧ error.cause.IsTrueOf direction (booleanText truthy falsy) value := by
  cases direction with
  | encode =>
      cases value with
      | bool truth => cases fails
      | _ =>
          cases fails
          exact ⟨rfl, rfl, by simp [Value.kind]⟩
  | decode =>
      cases value with
      | string text =>
          obtain ⟨message, rfl⟩ := exists_message_of_decodeBoolean fails
          exact ⟨rfl, _, _, _, text, rfl, rfl, rfl, fails⟩
      | _ =>
          cases fails
          exact ⟨rfl, rfl, by simp [Value.kind]⟩

/-- A codec between leaves fails at the value itself, and as its conversion does. -/
theorem PointsInto.of_codec_leaf {source target : LeafType} {conversion : Conversion}
    (isTrue : ∀ inner, conversion.run direction value = .error inner → inner.path = "" ∧
      inner.cause.IsTrueOf direction (.codec (.leaf source) (.leaf target) conversion) value)
    (fails : transcodeAt direction path id (.codec (.leaf source) (.leaf target) conversion) value =
      .error error) :
    PointsInto direction path (.codec (.leaf source) (.leaf target) conversion) value error := by
  rw [transcodeAt_codec_leaf] at fails
  obtain ⟨⟨innerPath, cause⟩, converts, rfl⟩ := mapError_eq_error_iff.mp fails
  obtain ⟨rfl, truth⟩ := isTrue _ converts
  rw [TranscodingError.anchored_root]
  exact .here truth

end PointsInto

/-! ## (4) Documented schemas -/

/-- **An error points into the value** that a documented schema with its renames applied rejects,
and tells the truth. -/
theorem errorsPoint_of_documented {schema applied : Schema} (documented : schema.Documented)
    (applies : schema.applyRenames = .ok applied) {value : Value}
    (distinct : value.HasDistinctKeys) {direction : Direction} :
    schema.ErrorsPoint direction value := by
  have meets := meets_of_documented documented applies distinct
  clear documented applies distinct
  induction meets with
  | leaf kind value => exact errorsPoint_leaf kind
  | object names applies unique _ _ declaredPoint othersPoint =>
      exact errorsPoint_object names applies unique declaredPoint othersPoint
  | noObject applies other => exact errorsPoint_struct_of_not_object applies other
  | array applies _ slotsPoint => exact errorsPoint_array applies slotsPoint
  | noArray applies other => exact errorsPoint_tuple_of_not_array applies other
  | timestampText value => exact fun _ _ => .of_codec_leaf fun _ => isTrueOf_timestampText
  | booleanText truthy falsy value =>
      exact fun _ _ => .of_codec_leaf fun _ => isTrueOf_booleanText

/-- **Errors point into the input and tell the truth about it**, in both directions: the pointer
resolves to the value that is found along the schema by the names of the input, and what the error
says is true of this value. -/
theorem exists_place_of_transcode_error {document : SchemaDocument} {schema applied : Schema}
    (describes : document.toSchema = .ok schema) (applies : schema.applyRenames = .ok applied)
    {value : Value} (distinct : value.HasDistinctKeys) {direction : Direction}
    {error : TranscodingError} (fails : applied.transcode direction value = .error error) :
    ∃ segments type inner, Pointer.segments? error.path = some segments ∧
      schema.locate? direction.inputSide value segments = some (type, inner) ∧
      value.resolve? error.path = some inner ∧ error.cause.IsTrueOf direction type inner := by
  have documented := SchemaDocument.documented_of_toSchema describes
  rw [← renamed_of_applyRenames applies] at fails
  obtain ⟨segments, type, inner, atPath, located, isTrue⟩ :=
    errorsPoint_of_documented documented applies distinct "" error fails
  have reads : Pointer.segments? error.path = some segments := by
    rw [atPath, Pointer.segments?_extend]
  refine ⟨segments, type, inner, reads, located, ?_, isTrue⟩
  rw [Value.resolve?, reads]
  exact descend?_of_locate? located

/-- A parcel without a date is found by the written names, of which one holds a slash. -/
theorem exists_place_of_transcode_error_parcels :
    let parcel : SchemaDocument := .struct
      [⟨"sent", .timestampText, false, false, some "at", []⟩] none
    let document : SchemaDocument := .struct
      [⟨"parcels", .tuple [] (some parcel) false, false, false, some "in/out", []⟩] none
    let parcels : Schema := .struct
      [⟨"parcels", .tuple [] (some (.struct
        [⟨"sent", timestampText, false, false, some "at", []⟩] none)) false,
          false, false, some "in/out", []⟩] none
    let written : Value := .object
      [("in/out", .array [.object [("at", .string "1970-01-01T00:00:00Z")], .object []])]
    let error : TranscodingError := ⟨"/in~1out/1", .missingKey "at" .encoded⟩
    document.toSchema = .ok parcels ∧ parcels.renamed.transcode .decode written = .error error ∧
      ∃ segments type inner, Pointer.segments? error.path = some segments ∧
        parcels.locate? .encoded written segments = some (type, inner) ∧
        written.resolve? error.path = some inner ∧ error.cause.IsTrueOf .decode type inner := by
  intro parcel document parcels written error
  have describes : document.toSchema = .ok parcels := rfl
  have fails : parcels.renamed.transcode .decode written = .error error := by decide +kernel
  have distinct : written.HasDistinctKeys := by
    simp [written, Value.HasDistinctKeys, Value.ItemsHaveDistinctKeys,
      Value.MembersHaveDistinctKeys, keys]
  exact ⟨describes, fails, exists_place_of_transcode_error describes rfl distinct fails⟩

end Schema

end WireSchema

import WireSchema.Proofs.Schema.Parts
import WireSchema.Proofs.Transcoding.Agreement

/-! # Outcomes

What a value becomes when it is carried through a schema, where all failures count as one. It does
not depend on where the value stands, nor on the names that the input gives to its fields: these
show in errors only (`toOption_transcodeAt`). -/

namespace WireSchema.Schema

open Members

/-- What a value becomes in a direction, if it goes through. -/
def outcome? (direction : Direction) (schema : Schema) (value : Value) : Option Value :=
  (schema.transcode direction value).toOption

/-- The outcome of a type is the same at every place and for all names in the input. -/
def IsPlaceFree (direction : Direction) (schema : Schema) : Prop :=
  ∀ path inputName value, (transcodeAt direction path inputName schema value).toOption =
    schema.outcome? direction value

/-! ## (1) Each kind of schema -/

/-- What a leaf gives does not depend on the place. -/
theorem isPlaceFree_leaf (direction : Direction) (kind : LeafType) :
    (Schema.leaf kind).IsPlaceFree direction := by
  intro path inputName value
  simp [transcodeAt, outcome?, transcode]

/-- The outcome of a struct for an object, by the outcomes of its types. -/
def structOutcome? (direction : Direction) (fields : List (Field Schema))
    (index : Option (IndexSignature Schema)) (members : List (String × Value)) : Option Value :=
  (translate? (fields.map (fieldRule id id fun field => outcome? direction field.type))
    (index.map fun signature => outcome? direction signature.value) members).map
      fun outputs => .object (ofList outputs)

/-- Where the types inside a struct have the same outcomes everywhere, so has the struct. -/
theorem toOption_transcodeAt_struct (direction : Direction) (path : String)
    (inputName : String → String) (fields : List (Field Schema))
    (index : Option (IndexSignature Schema)) (members : List (String × Value))
    (declaredFree : ∀ field ∈ fields, field.type.IsPlaceFree direction)
    (othersFree : ∀ signature ∈ index, signature.value.IsPlaceFree direction) :
    (transcodeAt direction path inputName (.struct fields index) (.object members)).toOption =
      structOutcome? direction fields index members := by
  have agrees : AgreesUnless (fun _ => False)
      (transcodeAt direction path inputName (.struct (fields.map id) (index.map id))
        (.object members)) (structOutcome? direction fields index members) := by
    refine agreesUnless_struct (fun _ => rfl) (fun _ => rfl) ?_ ?_
    · intro field held value _ path
      exact .of_toOption_eq (declaredFree field held path id value)
    · intro signature held member _ path
      exact .of_toOption_eq (othersFree signature held path id member.2)
  simpa using agrees.toOption_eq

/-- The outcome of a tuple for an array, by the outcomes of its types. -/
def tupleOutcome? (direction : Direction) (elements : List (Element Schema))
    (rest : Option Schema) (items : List Value) : Option Value :=
  if admitsArity elements rest.isSome items.length then
    (Items.translate? (fun position => (slotType elements rest position).outcome? direction)
      items).map .array
  else none

/-- Without regard to errors, a tuple gives its outcome if its slots do not depend on the place. -/
theorem toOption_transcodeAt_tuple (direction : Direction) (path : String)
    (inputName : String → String) (elements : List (Element Schema)) (rest : Option Schema)
    (isReadonly : Bool) (items : List Value)
    (slotsFree : ∀ position, (slotType elements rest position).IsPlaceFree direction) :
    (transcodeAt direction path inputName (.tuple elements rest isReadonly)
      (.array items)).toOption = tupleOutcome? direction elements rest items := by
  rw [transcodeAt_tuple, tupleOutcome?]
  split
  · have agrees : AgreesUnless (fun _ => False)
        (itemOutputs direction path (slotType elements rest) 0 items)
        (Items.translate? (fun position => (slotType elements rest position).outcome? direction)
          items) :=
      agreesUnless_itemOutputs fun index item _ path =>
        .of_toOption_eq (slotsFree index path id item)
    exact (agrees.map Value.array).toOption_eq
  · rfl

/-- The outcome of a codec, by the outcomes of its sides. -/
def codecOutcome? (direction : Direction) (source target : Schema) (conversion : Conversion)
    (value : Value) : Option Value := do
  let near ← (nearSide source target direction).outcome? direction value
  let carried ← (conversion.run direction near).toOption
  (farSide source target direction).outcome? direction carried

/-- Without regard to errors, a codec gives its outcome if its sides do not depend on the place. -/
theorem toOption_transcodeAt_codec (direction : Direction) (path : String)
    (inputName : String → String) (source target : Schema) (conversion : Conversion) (value : Value)
    (nearFree : (nearSide source target direction).IsPlaceFree direction)
    (farFree : (farSide source target direction).IsPlaceFree direction) :
    (transcodeAt direction path inputName (.codec source target conversion) value).toOption =
      codecOutcome? direction source target conversion value := by
  have agrees : AgreesUnless (fun _ => False)
      (transcodeAt direction path inputName (.codec source target conversion) value)
      (codecOutcome? direction source target conversion value) := by
    rw [transcodeAt_codec, codecOutcome?]
    apply (AgreesUnless.of_toOption_eq (nearFree path id value)).bind
    intro output _
    apply (AgreesUnless.mapError_anchored path (fun _ => id) (.refl _)).bind
    intro carried _
    exact .of_toOption_eq (farFree path _ carried)
  exact agrees.toOption_eq

/-! ## (2) All schemas -/

/-- What a schema gives does not depend on the place. -/
theorem isPlaceFree (direction : Direction) (schema : Schema) : schema.IsPlaceFree direction := by
  induction schema using Schema.induction with
  | leaf kind => exact isPlaceFree_leaf direction kind
  | struct fields index fieldsInduction indexInduction =>
      intro path inputName value
      cases value with
      | object members =>
          -- the outcome is the run at the root, so both runs are put as their members
          rw [outcome?, transcode,
            toOption_transcodeAt_struct _ _ _ _ _ _ fieldsInduction indexInduction,
            toOption_transcodeAt_struct _ _ _ _ _ _ fieldsInduction indexInduction]
      | _ =>
          rw [outcome?, transcode, transcodeAt_struct_of_not_object _ _ _ _ _ rfl,
            transcodeAt_struct_of_not_object _ _ _ _ _ rfl]
          rfl
  | tuple elements rest isReadonly elementsInduction restInduction =>
      have slots : ∀ position, (slotType elements rest position).IsPlaceFree direction :=
        slotType_induction elementsInduction restInduction (isPlaceFree_leaf direction .unknown)
      intro path inputName value
      cases value with
      | array items =>
          rw [outcome?, transcode, toOption_transcodeAt_tuple _ _ _ _ _ _ _ slots,
            toOption_transcodeAt_tuple _ _ _ _ _ _ _ slots]
      | _ =>
          rw [outcome?, transcode, transcodeAt_tuple_of_not_array _ _ _ _ _ _ rfl,
            transcodeAt_tuple_of_not_array _ _ _ _ _ _ rfl]
          rfl
  | codec source target conversion sourceInduction targetInduction =>
      have near : (nearSide source target direction).IsPlaceFree direction :=
        nearSide_induction sourceInduction targetInduction direction
      have far : (farSide source target direction).IsPlaceFree direction :=
        farSide_induction sourceInduction targetInduction direction
      intro path inputName value
      rw [outcome?, transcode, toOption_transcodeAt_codec _ _ _ _ _ _ _ near far,
        toOption_transcodeAt_codec _ _ _ _ _ _ _ near far]

/-- **The outcome** does not depend on the place of a value nor on the names in the input. -/
theorem toOption_transcodeAt (direction : Direction) (path : String) (inputName : String → String)
    (schema : Schema) (value : Value) :
    (transcodeAt direction path inputName schema value).toOption =
      schema.outcome? direction value := isPlaceFree direction schema path inputName value

/-! ## (3) Equations -/

section Equations

variable (direction : Direction)

/-- A leaf gives the value itself. -/
@[simp] theorem outcome?_leaf (kind : LeafType) (value : Value) :
    (Schema.leaf kind).outcome? direction value = some value := by
  simp [outcome?, transcode, transcodeAt, Except.toOption]

/-- A struct gives the outcome of its members for an object. -/
theorem outcome?_struct (fields : List (Field Schema)) (index : Option (IndexSignature Schema))
    (members : List (String × Value)) :
    (Schema.struct fields index).outcome? direction (.object members) =
      structOutcome? direction fields index members :=
  toOption_transcodeAt_struct direction "" id fields index members
    (fun field _ => isPlaceFree direction field.type)
    fun signature _ => isPlaceFree direction signature.value

/-- A struct gives nothing for what is no object. -/
theorem outcome?_struct_of_not_object (fields : List (Field Schema))
    (index : Option (IndexSignature Schema)) {value : Value} (other : value.members? = none) :
    (Schema.struct fields index).outcome? direction value = none := by
  rw [outcome?, transcode, transcodeAt_struct_of_not_object _ _ _ _ _ other]
  rfl

/-- A tuple gives the outcome of its slots for an array. -/
theorem outcome?_tuple (elements : List (Element Schema)) (rest : Option Schema)
    (isReadonly : Bool) (items : List Value) :
    (Schema.tuple elements rest isReadonly).outcome? direction (.array items) =
      tupleOutcome? direction elements rest items :=
  toOption_transcodeAt_tuple direction "" id elements rest isReadonly items
    fun _ => isPlaceFree direction _

/-- A tuple gives nothing for what is no array. -/
theorem outcome?_tuple_of_not_array (elements : List (Element Schema)) (rest : Option Schema)
    (isReadonly : Bool) {value : Value} (other : value.items? = none) :
    (Schema.tuple elements rest isReadonly).outcome? direction value = none := by
  rw [outcome?, transcode, transcodeAt_tuple_of_not_array _ _ _ _ _ _ other]
  rfl

/-- A codec gives the outcome of its two sides with the conversion between them. -/
theorem outcome?_codec (source target : Schema) (conversion : Conversion) (value : Value) :
    (Schema.codec source target conversion).outcome? direction value =
      codecOutcome? direction source target conversion value :=
  toOption_transcodeAt_codec direction "" id source target conversion value
    (isPlaceFree direction _) (isPlaceFree direction _)

end Equations

end WireSchema.Schema

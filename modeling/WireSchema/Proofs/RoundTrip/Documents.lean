import WireSchema.Proofs.RoundTrip.Codecs
import WireSchema.Proofs.Timestamp.Rewriting
import WireSchema.Proofs.Value.DistinctKeys

/-! # Documents there and back

A document is encoded, written, read again, decoded and written once more. Nothing is lost on the
way, for there is no timestamp in a document nor in what it is encoded as (`isJson_of_encodes`), and
the document that comes back is the tidied one, with its timestamps as they are written
(`exists_document_back`). -/

namespace WireSchema.Schema

open Members Value

/-! ## (1) What documents are encoded as -/

/-- What stands at a place inside a document is held by a document. -/
theorem Place.isJson {side : Side} {schema type : Schema} {value inner : Value}
    (place : Place side schema value type inner) (isJson : value.IsJson) : inner.IsJson := by
  induction place with
  | here => exact isJson
  | member found _ induction => exact induction (isJson.of_find? found)
  | item found _ induction => exact induction (isJson.of_getElem? found)

/-- What a schema with its renames applied encodes documents as is held by documents. -/
def EncodesToJson (schema : Schema) (value : Value) : Prop :=
  value.IsJson → ∀ written, schema.renamed.outcome? .encode value = some written → written.IsJson

/-- A leaf encodes a document as itself. -/
theorem encodesToJson_leaf (kind : LeafType) (value : Value) :
    (Schema.leaf kind).EncodesToJson value := by
  intro isJson written crosses
  rw [renamed_leaf, outcome?_leaf] at crosses
  cases crosses
  exact isJson

/-- Timestamps are encoded as texts. -/
theorem encodesToJson_timestampText (value : Value) : timestampText.EncodesToJson value := by
  intro _ written crosses
  have plain : timestampText.renamed = timestampText := rfl
  rw [plain, timestampText, outcome?_codec_leaf, toOption_eq_some_iff] at crosses
  obtain ⟨timestamp, _, rfl⟩ := Conversion.encodeTimestamp_eq_ok_iff.mp crosses
  rfl

/-- Truth values are encoded as texts. -/
theorem encodesToJson_booleanText (truthy falsy : String) (value : Value) :
    (booleanText truthy falsy).EncodesToJson value := by
  intro _ written crosses
  have plain : (booleanText truthy falsy).renamed = booleanText truthy falsy := rfl
  rw [plain, booleanText, outcome?_codec_leaf, toOption_eq_some_iff] at crosses
  cases value with
  | bool truth =>
      cases crosses
      rfl
  | _ => cases crosses

section Structs

variable {fields : List (Field Schema)} {index : Option (IndexSignature Schema)} {applied : Schema}

/-- A struct encodes documents as documents when its types do. -/
theorem encodesToJson_struct {members : List (String × Value)}
    (names : (fields.map Field.name).Nodup)
    (applies : (Schema.struct fields index).applyRenames = .ok applied)
    (unique : (keys members).Nodup)
    (declaredEncode : ∀ field ∈ fields, ∀ key value, find? members key = some value →
      field.type.EncodesToJson value)
    (othersEncode : ∀ signature ∈ index, ∀ key value, find? members key = some value →
      signature.value.EncodesToJson value) :
    (Schema.struct fields index).EncodesToJson (.object members) := by
  intro isJson written crosses
  rw [outcome?_renamed_struct names applies .encode unique] at crosses
  obtain ⟨outputs, crossed, rfl⟩ := Option.map_eq_some_iff.mp crosses
  refine (isJson_object outputs).mpr fun output held => ?_
  rcases mem_translate? crossed held with
    ⟨_, ruled, value, found, becomes, _⟩ | ⟨_, kept, value, memberHeld, _, becomes⟩
  · obtain ⟨field, fieldHeld, rfl⟩ := List.mem_map.mp ruled
    exact declaredEncode field fieldHeld _ value found (isJson.of_find? found) output.2 becomes
  · obtain ⟨signature, isOpen, rfl⟩ := Option.map_eq_some_iff.mp kept
    have found := find?_of_mem unique memberHeld
    exact othersEncode signature isOpen _ value found (isJson.of_find? found) output.2 becomes

/-- A struct encodes nothing that is no object. -/
theorem encodesToJson_struct_of_not_object {value : Value}
    (applies : (Schema.struct fields index).applyRenames = .ok applied)
    (other : value.members? = none) : (Schema.struct fields index).EncodesToJson value := by
  intro _ written crosses
  rw [outcome?_renamed_struct_of_not_object applies .encode other] at crosses
  cases crosses

end Structs

section Tuples

variable {elements : List (Element Schema)} {rest : Option Schema} {isReadonly : Bool}
  {applied : Schema}

/-- A tuple encodes documents as documents when its types do. -/
theorem encodesToJson_tuple {items : List Value}
    (applies : (Schema.tuple elements rest isReadonly).applyRenames = .ok applied)
    (slotsEncode : ∀ position item, items[position]? = some item →
      (slotType elements rest position).EncodesToJson item) :
    (Schema.tuple elements rest isReadonly).EncodesToJson (.array items) := by
  intro isJson written crosses
  rw [outcome?_renamed_tuple applies] at crosses
  obtain ⟨_, crosses⟩ := Option.ite_none_right_eq_some.mp crosses
  obtain ⟨outputs, translated, rfl⟩ := Option.map_eq_some_iff.mp crosses
  refine (isJson_array outputs).mpr fun output held => ?_
  obtain ⟨position, outputFound⟩ := List.mem_iff_getElem?.mp held
  rw [Items.getElem?_translate? translated] at outputFound
  obtain ⟨item, found, becomes⟩ := Option.bind_eq_some_iff.mp outputFound
  exact slotsEncode position item found (isJson.of_getElem? found) output becomes

/-- A tuple encodes nothing that is no array. -/
theorem encodesToJson_tuple_of_not_array {value : Value}
    (applies : (Schema.tuple elements rest isReadonly).applyRenames = .ok applied)
    (other : value.items? = none) :
    (Schema.tuple elements rest isReadonly).EncodesToJson value := by
  intro _ written crosses
  rw [outcome?_renamed_tuple_of_not_array applies .encode other] at crosses
  cases crosses

end Tuples

/-- **Documents are encoded as documents** by documented schemas. -/
theorem isJson_of_encodes {schema applied : Schema} (documented : schema.Documented)
    (applies : schema.applyRenames = .ok applied) {value : Value}
    (distinct : value.HasDistinctKeys) : schema.EncodesToJson value := by
  have meets := meets_of_documented documented applies distinct
  clear documented applies distinct
  induction meets with
  | leaf kind value => exact encodesToJson_leaf kind value
  | object names applies unique _ _ declaredInduction othersInduction =>
      exact encodesToJson_struct names applies unique declaredInduction othersInduction
  | noObject applies other => exact encodesToJson_struct_of_not_object applies other
  | array applies _ slotsInduction => exact encodesToJson_tuple applies slotsInduction
  | noArray applies other => exact encodesToJson_tuple_of_not_array applies other
  | timestampText value => exact encodesToJson_timestampText value
  | booleanText truthy falsy value => exact encodesToJson_booleanText truthy falsy value

/-! ## (2) Tidied documents -/

/-- What a document holds in place of a timestamp is written as its timestamp cut to whole
milliseconds is. -/
theorem throughJson_cutToMillis {value : Value} (isJson : value.IsJson) :
    value.cutToMillis.throughJson = value.rewritten := by
  cases value with
  | date timestamp => exact absurd isJson (not_isJson_date timestamp)
  | string text =>
      rw [Value.cutToMillis, Value.timestamp?, Value.rewritten]
      cases Timestamp.parse text with
      | ok timestamp => exact congrArg Value.string timestamp.render_cutToMillis
      | error _ => rfl
  | _ => exact isJson

/-- **A tidied document** is the document of the tidied value. -/
theorem throughJson_tidied {side : Side} {schema : Schema} (documented : schema.Documented)
    {value : Value} (isJson : value.IsJson) :
    (schema.tidied side Value.cutToMillis value).throughJson =
      schema.tidied side Value.rewritten value := by
  induction documented generalizing value with
  | leaf kind =>
      rw [tidied_leaf, tidied_leaf]
      exact isJson
  | @struct fields index _ _ _ fieldsInduction indexInduction =>
      cases value with
      | object members =>
          rw [tidied_struct, tidied_struct, throughJson_object]
          refine congrArg Value.object (mapValues_rekey fun member held => ?_)
          have memberJson := (isJson_object members).mp isJson member held
          refine memberType_induction (motive := fun type =>
            (type.tidied side Value.cutToMillis member.2).throughJson =
              type.tidied side Value.rewritten member.2) ?_ ?_ ?_ side member.1
          · exact fun field fieldHeld => fieldsInduction field fieldHeld memberJson
          · exact fun signature isOpen => indexInduction signature isOpen memberJson
          · rw [unknown, tidied_leaf, tidied_leaf]
            exact memberJson
      | _ =>
          rw [tidied, tidied, reshape_struct_of_not_object _ _ _ rfl,
            reshape_struct_of_not_object _ _ _ rfl]
          exact isJson
  | @tuple elements rest isReadonly _ _ elementsInduction restInduction =>
      cases value with
      | array items =>
          rw [tidied_tuple, tidied_tuple, throughJson_array]
          refine congrArg Value.array (List.ext_getElem? fun position => ?_)
          rw [List.getElem?_map, List.getElem?_mapIdx, List.getElem?_mapIdx, Option.map_map]
          refine Option.map_congr fun item found => ?_
          have itemJson := isJson.of_getElem? found
          refine slotType_induction (motive := fun type =>
            (type.tidied side Value.cutToMillis item).throughJson =
              type.tidied side Value.rewritten item) ?_ ?_ ?_ position
          · exact fun element held => elementsInduction element held itemJson
          · exact fun type held => restInduction type held itemJson
          · rw [unknown, tidied_leaf, tidied_leaf]
            exact itemJson
      | _ =>
          rw [tidied, tidied, reshape_tuple_of_not_array _ _ _ _ rfl,
            reshape_tuple_of_not_array _ _ _ _ rfl]
          exact isJson
  | timestampText =>
      rw [tidied_timestampText, tidied_timestampText]
      -- only here do the two tidied forms differ
      exact throughJson_cutToMillis isJson
  | booleanText truthy falsy =>
      rw [tidied_booleanText, tidied_booleanText]
      exact isJson

/-! ## (3) There and back -/

/-- **A document comes back** from the document that it is encoded as, where the texts of truth
values differ and the timestamps are of years with four digits. -/
theorem exists_document_back {schema applied : Schema} (documented : schema.Documented)
    (applies : schema.applyRenames = .ok applied)
    (different : ∀ truthy falsy, .booleanText truthy falsy ∈ schema.parts true → truthy ≠ falsy)
    {value written : Value} (isJson : value.IsJson) (distinct : value.HasDistinctKeys)
    (plain : ∀ inner timestamp, Place .decoded schema value timestampText inner →
      inner.timestamp? = some timestamp → timestamp.HasPlainYear)
    (encodes : applied.encode value = .ok written) :
    ∃ back, applied.decode written.throughJson = .ok back ∧
      SameUpToOrder back.throughJson (schema.tidied .decoded Value.rewritten value) := by
  have returns : Returns .encode Value.cutToMillis schema value := by
    refine returns_encode_of_documented documented applies distinct different ?_ plain
    intro timestamp place
    exact absurd (place.isJson isJson) (not_isJson_date timestamp)
  rw [← renamed_of_applyRenames applies] at encodes ⊢
  have crosses := toOption_eq_some_iff.mpr encodes
  obtain ⟨back, decodes, same⟩ := returns written crosses
  have writtenJson : written.throughJson = written :=
    isJson_of_encodes documented applies distinct isJson written crosses
  rw [writtenJson]
  refine ⟨back, toOption_eq_some_iff.mp decodes, ?_⟩
  rw [← throughJson_tidied documented isJson]
  exact same.throughJson

end WireSchema.Schema

import WireSchema.Proofs.Members.Viewing
import WireSchema.Proofs.RoundTrip.Codecs
import WireSchema.Proofs.Timestamp.Rewriting
import WireSchema.Proofs.Value.ThroughJson

/-! # Encoding what has travelled as JSON

A value may be written as a document and read again before it is encoded: its timestamps are texts
then, wherever they stand. The encoding succeeds as without the journey, and what it puts out is the
same document. This is said node by node of the pairs of a schema and a value that **travel as
JSON**, and follows for whole documented schemas from what stands at the codecs of timestamps. -/

namespace WireSchema.Schema

open Members Value

/-- Encoding with the renames applied puts out the same document after a journey as JSON as
without, or fails both times. -/
def TravelsAsJson (schema : Schema) (value : Value) : Prop :=
  (schema.renamed.outcome? .encode value.throughJson).map toJson =
    (schema.renamed.outcome? .encode value).map toJson

/-! ## (1) Leaves and codecs -/

/-- A leaf puts out the value itself, before and after the journey. -/
theorem travelsAsJson_leaf (kind : LeafType) (value : Value) :
    (Schema.leaf kind).TravelsAsJson value := by
  rw [TravelsAsJson, renamed_leaf, outcome?_leaf, outcome?_leaf, Option.map_some, Option.map_some,
    toJson_throughJson]

/-- **A timestamp travels** when its text is read and written as it is. -/
theorem travelsAsJson_timestampText {value : Value}
    (rewritten : ∀ timestamp, value = .date timestamp →
      ∃ read, Timestamp.parse timestamp.render = .ok read ∧ read.render = timestamp.render) :
    timestampText.TravelsAsJson value := by
  have plain : timestampText.renamed = timestampText := rfl
  rw [TravelsAsJson, plain, timestampText, outcome?_codec_leaf, outcome?_codec_leaf]
  cases value with
  | date timestamp =>
      -- the text is taken in place of the timestamp, and gives the same text
      obtain ⟨read, reads, same⟩ := rewritten timestamp rfl
      have again : Conversion.encodeTimestamp (.string timestamp.render) =
          Conversion.encodeTimestamp (.date timestamp) := by
        rw [Conversion.encodeTimestamp, Conversion.encodeTimestamp, Conversion.readTimestamp, reads,
          ← same]
        rfl
      rw [throughJson_date, Conversion.run, Conversion.encode, again]
  | string text => rw [throughJson_string]
  | _ => rfl

/-- Truth values travel as they are, and nothing else is taken for one. -/
theorem travelsAsJson_booleanText (truthy falsy : String) (value : Value) :
    (booleanText truthy falsy).TravelsAsJson value := by
  have plain : (booleanText truthy falsy).renamed = booleanText truthy falsy := rfl
  rw [TravelsAsJson, plain, booleanText, outcome?_codec_leaf, outcome?_codec_leaf]
  cases value <;> rfl

/-! ## (2) Structs -/

section Structs

variable {fields : List (Field Schema)} {index : Option (IndexSignature Schema)}
  {members : List (String × Value)} {applied : Schema}

/-- The members of an object translate alike when their values travel. -/
theorem cross?_throughJson
    (declaredTravel : ∀ field ∈ fields, ∀ value,
      find? members ((Renames.ofFields fields).nameOn .decoded field.name) = some value →
        field.type.TravelsAsJson value)
    (othersTravel : ∀ signature ∈ index, ∀ member ∈ members,
      member.1 ∉ namesOn .decoded fields → signature.value.TravelsAsJson member.2) :
    (cross? .encode fields index (mapValues (fun _ => throughJson) members)).map
        (mapValues fun _ => toJson) =
      (cross? .encode fields index members).map (mapValues fun _ => toJson) := by
  refine translate?_mapValues (List.forall_mem_map.mpr fun field held value found => ?_) ?_
  · exact declaredTravel field held value found
  · intro part kept member held unread
    obtain ⟨signature, isOpen, rfl⟩ := Option.map_eq_some_iff.mp kept
    rw [readNames_fieldRule] at unread
    exact othersTravel signature isOpen member held unread

/-- **An object travels** through a struct when the values of its members do. -/
theorem travelsAsJson_struct (names : (fields.map Field.name).Nodup)
    (applies : (Schema.struct fields index).applyRenames = .ok applied)
    (unique : (keys members).Nodup)
    (declaredTravel : ∀ field ∈ fields, ∀ value,
      find? members ((Renames.ofFields fields).nameOn .decoded field.name) = some value →
        field.type.TravelsAsJson value)
    (othersTravel : ∀ signature ∈ index, ∀ member ∈ members,
      member.1 ∉ namesOn .decoded fields → signature.value.TravelsAsJson member.2) :
    (Schema.struct fields index).TravelsAsJson (.object members) := by
  have uniqueThrough : (keys (mapValues (fun _ => throughJson) members)).Nodup := by
    rw [keys_mapValues]
    exact unique
  have alike := congrArg (Option.map Json.object) (cross?_throughJson declaredTravel othersTravel)
  rw [TravelsAsJson, throughJson_object,
    outcome?_renamed_struct names applies .encode uniqueThrough,
    outcome?_renamed_struct names applies .encode unique]
  simp only [Option.map_map] at alike ⊢
  have shown : toJson ∘ Value.object = Json.object ∘ mapValues fun _ => toJson :=
    funext toJson_object
  rw [shown]
  exact alike

/-- What is no object crosses a struct neither way, also if it is one that JSON holds as a text. -/
theorem travelsAsJson_struct_of_not_object {value : Value}
    (applies : (Schema.struct fields index).applyRenames = .ok applied)
    (other : value.members? = none) : (Schema.struct fields index).TravelsAsJson value := by
  have otherThrough : value.throughJson.members? = none := by
    cases value with
    | object members => cases other
    | _ => rfl
  rw [TravelsAsJson, outcome?_renamed_struct_of_not_object applies .encode other,
    outcome?_renamed_struct_of_not_object applies .encode otherThrough]

end Structs

/-! ## (3) Tuples -/

section Tuples

variable {elements : List (Element Schema)} {rest : Option Schema} {isReadonly : Bool}
  {applied : Schema}

/-- **An array travels** through a tuple when its items do. -/
theorem travelsAsJson_tuple {items : List Value}
    (applies : (Schema.tuple elements rest isReadonly).applyRenames = .ok applied)
    (itemsTravel : ∀ position item, items[position]? = some item →
      (slotType elements rest position).TravelsAsJson item) :
    (Schema.tuple elements rest isReadonly).TravelsAsJson (.array items) := by
  rw [TravelsAsJson, throughJson_array, outcome?_renamed_tuple applies,
    outcome?_renamed_tuple applies, List.length_map]
  by_cases admits : admitsArity elements rest.isSome items.length
  · have alike := congrArg (Option.map Json.array) (Items.translate?_map itemsTravel)
    rw [if_pos admits, if_pos admits]
    simp only [Option.map_map] at alike ⊢
    have shown : toJson ∘ Value.array = Json.array ∘ List.map toJson := funext toJson_array
    rw [shown]
    exact alike
  · rw [if_neg admits, if_neg admits]

/-- What is no array crosses a tuple neither way. -/
theorem travelsAsJson_tuple_of_not_array {value : Value}
    (applies : (Schema.tuple elements rest isReadonly).applyRenames = .ok applied)
    (other : value.items? = none) :
    (Schema.tuple elements rest isReadonly).TravelsAsJson value := by
  have otherThrough : value.throughJson.items? = none := by
    cases value with
    | array items => cases other
    | _ => rfl
  rw [TravelsAsJson, outcome?_renamed_tuple_of_not_array applies .encode other,
    outcome?_renamed_tuple_of_not_array applies .encode otherThrough]

end Tuples

/-! ## (4) Whole schemas -/

/-- **A value travels** through a documented schema when what stands at the codecs of timestamps
does. -/
theorem travelsAsJson_of_documented {schema applied : Schema} (documented : schema.Documented)
    (applies : schema.applyRenames = .ok applied) {value : Value} (distinct : value.HasDistinctKeys)
    (stamps : ∀ inner, Place .decoded schema value timestampText inner →
      timestampText.TravelsAsJson inner) :
    schema.TravelsAsJson value := by
  have meets := meets_of_documented documented applies distinct
  clear documented applies distinct
  induction meets with
  | leaf kind value => exact travelsAsJson_leaf kind value
  | object names applies unique _ _ declaredInduction othersInduction =>
      have distinctNames := nodup_namesOn names applies .decoded
      refine travelsAsJson_struct names applies unique ?_ ?_
      · intro field held inner found
        exact declaredInduction field held _ inner found
          fun _ below => stamps _ (.field distinctNames held found below)
      · intro signature isOpen member held undeclared
        have found := find?_of_mem unique held
        exact othersInduction signature isOpen _ _ found
          fun _ below => stamps _ (.other isOpen undeclared found below)
  | noObject applies other => exact travelsAsJson_struct_of_not_object applies other
  | array applies _ slotsInduction =>
      refine travelsAsJson_tuple applies fun position item found => ?_
      exact slotsInduction position item found fun _ below => stamps _ (.item found below)
  | noArray applies other => exact travelsAsJson_tuple_of_not_array applies other
  | timestampText value => exact stamps value (.here _ _)
  | booleanText truthy falsy value => exact travelsAsJson_booleanText truthy falsy value

/-- **A decoded value may travel as JSON**: with the renames of a documented schema applied, its
encoding succeeds exactly when that of the value read back from its document does, and both put out
the same document. The timestamps at codecs of timestamps have to be of years with four digits;
other timestamps may stand anywhere. -/
theorem encode_ofJson_toJson {document : SchemaDocument} {schema applied : Schema}
    (describes : document.toSchema = .ok schema) (applies : schema.applyRenames = .ok applied)
    {value : Value} (distinct : value.HasDistinctKeys)
    (stamps : ∀ timestamp, Place .decoded schema value timestampText (.date timestamp) →
      timestamp.nanos < 2 * Timestamp.nanosPerSecond ∧ timestamp.HasPlainYear) :
    ((∃ written, applied.encode value = .ok written) ↔
      ∃ again, applied.encode (ofJson value.toJson) = .ok again) ∧
    ∀ written again, applied.encode value = .ok written →
      applied.encode (ofJson value.toJson) = .ok again → again.toJson = written.toJson := by
  have documented := SchemaDocument.documented_of_toSchema describes
  have travels : schema.TravelsAsJson value := by
    refine travelsAsJson_of_documented documented applies distinct fun inner place => ?_
    apply travelsAsJson_timestampText
    rintro timestamp rfl
    obtain ⟨nanos, plain⟩ := stamps timestamp place
    exact Timestamp.exists_parse_render nanos plain
  rw [TravelsAsJson, renamed_of_applyRenames applies] at travels
  have alike : (applied.encode (ofJson value.toJson)).toOption.map toJson =
      (applied.encode value).toOption.map toJson := travels
  constructor
  · have succeeds := congrArg Option.isSome alike
    rw [Option.isSome_map, Option.isSome_map] at succeeds
    simp only [← toOption_eq_some_iff, ← Option.isSome_iff_exists, succeeds]
  · intro written again encodes encodesAgain
    rw [encodes, encodesAgain] at alike
    exact Option.some_inj.mp alike

/-- An order is encoded alike from its document: its renamed timestamp, of a second that is counted
with more nanoseconds than it has, as well as the timestamp in its note. -/
theorem encode_ofJson_toJson_order :
    let document : SchemaDocument := .struct
      [⟨"placed", .timestampText, false, false, some "at", []⟩,
        ⟨"paid", .booleanText "Y" "N", true, false, none, []⟩] (some ⟨none, .leaf .unknown, false⟩)
    let order : Schema := .struct
      [⟨"placed", timestampText, false, false, some "at", []⟩,
        ⟨"paid", booleanText "Y" "N", true, false, none, []⟩]
      (some ⟨.string, .leaf .unknown, false⟩)
    let value : Value := .object [("note", .date ⟨0, 0⟩), ("placed", .date ⟨0, 1001500000⟩)]
    let written : Value :=
      .object [("at", .string "1970-01-01T00:00:01.001Z"), ("note", .date ⟨0, 0⟩)]
    document.toSchema = .ok order ∧ order.renamed.encode value = .ok written ∧
      ∃ again, order.renamed.encode (ofJson value.toJson) = .ok again ∧
        again.toJson = written.toJson := by
  intro document order value written
  have describes : document.toSchema = .ok order := rfl
  have encodes : order.renamed.encode value = .ok written := rfl
  have distinct : value.HasDistinctKeys := by
    simp [value, HasDistinctKeys, MembersHaveDistinctKeys, Members.keys]
  have stamps : ∀ timestamp, Place .decoded order value timestampText (.date timestamp) →
      timestamp.nanos < 2 * Timestamp.nanosPerSecond ∧ timestamp.HasPlainYear := by
    intro timestamp place
    simp only [order, value] at place
    -- only one of the two keys leads to a timestamp of the schema
    cases place with
    | @member _ _ _ key _ _ _ found below =>
        simp only [Members.find?] at found
        by_cases note : "note" = key
        · subst note
          cases found
          cases below
        · rw [if_neg note] at found
          obtain ⟨placed, found⟩ := Option.ite_none_right_eq_some.mp found
          subst placed
          cases found
          cases below
          exact ⟨by decide, by decide, by decide⟩
  obtain ⟨succeeds, same⟩ := encode_ofJson_toJson describes rfl distinct stamps
  obtain ⟨again, encodesAgain⟩ := succeeds.mp ⟨written, encodes⟩
  exact ⟨describes, encodes, again, encodesAgain, same written again encodes encodesAgain⟩

end WireSchema.Schema

import WireSchema.Proofs.Gathering
import WireSchema.Proofs.Renaming.Crossing
import WireSchema.Proofs.Renaming.Meeting
import WireSchema.Proofs.RoundTrip.Codecs
import WireSchema.Proofs.TwoRuns.Renamed
import WireSchema.Proofs.TwoRuns.Translations
import WireSchema.Proofs.Value.Same

/-! # Transcoding respects sameness

Two values that are the same up to the order of object members become the same, or none of them
becomes anything (`outcomesAgree_of_isSame`). Declared members are visited in the order of their
declarations, so that closed structs also fail for the same reason at the same place
(`goesAlike_of_isSame`); an open struct visits undeclared members in their own order, which decides
which of several failures comes first. -/

namespace WireSchema

open Members Value

/-! ## (1) Conversions -/

namespace Conversion

variable {direction : Direction} {left right : Value}

/-- What is made of the timestamp that a text denotes. -/
theorem matchBy_readTimestamp (text : String) {result : Timestamp → Value}
    (reflexive : ∀ timestamp, IsSame (result timestamp) (result timestamp)) :
    MatchBy IsSame ((readTimestamp text).map result) ((readTimestamp text).map result) := by
  have reads : MatchBy Eq (readTimestamp text) (readTimestamp text) := .refl (fun _ => rfl) _
  exact reads.map fun timestamp _ equal => equal ▸ reflexive timestamp

/-- The conversion of timestamps treats values alike that are the same. -/
theorem matchBy_run_timestampText (same : IsSame left right) :
    MatchBy IsSame (timestampText.run direction left) (timestampText.run direction right) := by
  cases direction with
  | encode =>
      refine same.cases (.error _) (fun _ => .error _) (fun _ _ => .error _) (fun text => ?_)
        (fun timestamp => .ok (isSame_string _)) (fun _ _ _ => .error _) fun _ _ _ => .error _
      exact matchBy_readTimestamp text fun timestamp => isSame_string _
  | decode =>
      refine same.cases (.error _) (fun _ => .error _) (fun _ _ => .error _) (fun text => ?_)
        (fun _ => .error _) (fun _ _ _ => .error _) fun _ _ _ => .error _
      exact matchBy_readTimestamp text isSame_date

/-- The conversion of truth values treats values alike that are the same. -/
theorem matchBy_run_booleanText (truthy falsy : String) (same : IsSame left right) :
    MatchBy IsSame ((booleanText truthy falsy).run direction left)
      ((booleanText truthy falsy).run direction right) := by
  cases direction with
  | encode =>
      exact same.cases (.error _) (fun _ => .ok (isSame_string _)) (fun _ _ => .error _)
        (fun _ => .error _) (fun _ => .error _) (fun _ _ _ => .error _) fun _ _ _ => .error _
  | decode =>
      refine same.cases (.error _) (fun _ => .error _) (fun _ _ => .error _) (fun text => ?_)
        (fun _ => .error _) (fun _ _ _ => .error _) fun _ _ _ => .error _
      show MatchBy IsSame (decodeBoolean truthy falsy (.string text))
        (decodeBoolean truthy falsy (.string text))
      rw [decodeBoolean]
      split
      · exact .ok (isSame_bool true)
      · split
        · exact .ok (isSame_bool false)
        · exact .error _

end Conversion

namespace Schema

variable {direction : Direction}

/-- Being the same up to the order of members is a congruence. -/
theorem isCongruence_isSame : IsCongruence IsSame where
  object uniqueLeft corresponds :=
    (isSame_object_iff uniqueLeft (corresponds.keys_eq ▸ uniqueLeft)).mpr corresponds.find?
  array each := (isSame_array_iff _ _).mpr each

/-! ## (2) Outcomes -/

/-- **The outcomes of a type agree** on two values: they are the same, or there is none. -/
def OutcomesAgree (direction : Direction) (type : Schema) (left right : Value) : Prop :=
  Option.Rel IsSame (type.renamed.outcome? direction left) (type.renamed.outcome? direction right)

section Structs

variable {fields : List (Field Schema)} {index : Option (IndexSignature Schema)} {applied : Schema}

/-- The outcomes of a struct agree when those of its types do on what is found under each key. -/
theorem outcomesAgree_struct {lefts rights : List (String × Value)}
    (names : (fields.map Field.name).Nodup)
    (applies : (Schema.struct fields index).applyRenames = .ok applied)
    (uniqueLeft : (keys lefts).Nodup) (uniqueRight : (keys rights).Nodup)
    (declared : ∀ field ∈ fields, ∀ key, Option.Rel (OutcomesAgree direction field.type)
      (find? lefts key) (find? rights key))
    (others : ∀ signature ∈ index, ∀ key, Option.Rel (OutcomesAgree direction signature.value)
      (find? lefts key) (find? rights key)) :
    OutcomesAgree direction (.struct fields index) (.object lefts) (.object rights) := by
  rw [OutcomesAgree, outcome?_renamed_struct names applies direction uniqueLeft,
    outcome?_renamed_struct names applies direction uniqueRight]
  have alike : TranslateAlike IsSame (fields.map (fieldRule
      ((Renames.ofFields fields).nameOn direction.inputSide)
      ((Renames.ofFields fields).nameOn direction.inputSide.opposite) (renamedPart direction)))
      (index.map (renamedOpenPart direction)) lefts rights := by
    refine ⟨uniqueLeft, uniqueRight, List.forall_mem_map.mpr ?_, fun part kept key _ => ?_⟩
    · exact fun field held => declared field held _
    · obtain ⟨signature, isOpen, rfl⟩ := Option.map_eq_some_iff.mp kept
      exact others signature isOpen key
  -- the names that are written are distinct, so that each key holds the outcome of one member
  have written := nodup_namesOn names applies direction.inputSide.opposite
  rw [namesOn, ← writeNames_fieldRule ((Renames.ofFields fields).nameOn direction.inputSide) _
    (renamedPart direction)] at written
  rw [cross?, cross?]
  rcases eq_none_or_eq_some_of_rel (alike.rel_translate? written) with
    ⟨failsLeft, failsRight⟩ | ⟨left, right, crossesLeft, crossesRight, keysLeft, keysRight, same⟩
  · rw [failsLeft, failsRight]
    exact .none
  · rw [crossesLeft, crossesRight]
    exact .some ((isSame_object_iff keysLeft keysRight).mpr same)

end Structs

/-- The outcomes of a tuple agree when those of its slots do on the items. -/
theorem outcomesAgree_tuple {elements : List (Element Schema)} {rest : Option Schema}
    {isReadonly : Bool} {applied : Schema}
    (applies : (Schema.tuple elements rest isReadonly).applyRenames = .ok applied)
    {lefts rights : List Value}
    (slots : Items.Corresponds
      (fun position => OutcomesAgree direction (slotType elements rest position)) lefts rights) :
    OutcomesAgree direction (.tuple elements rest isReadonly) (.array lefts) (.array rights) := by
  rw [OutcomesAgree, outcome?_renamed_tuple applies, outcome?_renamed_tuple applies,
    slots.length_eq]
  split
  · rcases eq_none_or_eq_some_of_rel (Items.rel_translate? slots) with
      ⟨failsLeft, failsRight⟩ | ⟨left, right, crossesLeft, crossesRight, each⟩
    · rw [failsLeft, failsRight]
      exact .none
    · rw [crossesLeft, crossesRight]
      exact .some ((isSame_array_iff left right).mpr each)
  · exact .none

/-- The outcomes of a codec between leaves agree when the runs of its conversion match. -/
theorem outcomesAgree_codec_leaf {source target : LeafType} {conversion : Conversion}
    {left right : Value}
    (converts : MatchBy IsSame (conversion.run direction left) (conversion.run direction right)) :
    OutcomesAgree direction (.codec (.leaf source) (.leaf target) conversion) left right := by
  have plain : (Schema.codec (.leaf source) (.leaf target) conversion).renamed =
      .codec (.leaf source) (.leaf target) conversion := rfl
  rw [OutcomesAgree, plain, outcome?_codec_leaf, outcome?_codec_leaf]
  exact converts.toOption

/-- **What is the same has the same outcome, or none**, whatever the order of its members. -/
theorem outcomesAgree_of_isSame {schema : Schema} {left right : Value} (meets : schema.Meets left)
    (rightDistinct : right.HasDistinctKeys) (same : IsSame left right) :
    OutcomesAgree direction schema left right := by
  induction meets generalizing right with
  | leaf kind value =>
      rw [OutcomesAgree, renamed_leaf, outcome?_leaf, outcome?_leaf]
      exact .some same
  | object names applies unique _ _ declaredInduction othersInduction =>
      -- the order of members does not matter, since each is found under its key
      obtain ⟨rights, rfl⟩ := same.exists_members
      refine outcomesAgree_struct names applies unique rightDistinct.nodup_keys ?_ ?_
      · intro field held key
        exact same.rel_find? unique rightDistinct fun inner _ found distinct alike =>
          declaredInduction field held key inner found distinct alike
      · intro signature isOpen key
        exact same.rel_find? unique rightDistinct fun inner _ found distinct alike =>
          othersInduction signature isOpen key inner found distinct alike
  | noObject applies other =>
      rw [OutcomesAgree, outcome?_renamed_struct_of_not_object applies direction other,
        outcome?_renamed_struct_of_not_object applies direction (same.members?_eq_none other)]
      exact .none
  | array applies _ slotsInduction =>
      -- items stand in the same order
      obtain ⟨rights, rfl⟩ := same.exists_items
      exact outcomesAgree_tuple applies (same.corresponds rightDistinct
        fun position item _ found distinct alike =>
          slotsInduction position item found distinct alike)
  | noArray applies other =>
      rw [OutcomesAgree, outcome?_renamed_tuple_of_not_array applies direction other,
        outcome?_renamed_tuple_of_not_array applies direction (same.items?_eq_none other)]
      exact .none
  | timestampText value =>
      exact outcomesAgree_codec_leaf (Conversion.matchBy_run_timestampText same)
  | booleanText truthy falsy value =>
      exact outcomesAgree_codec_leaf (Conversion.matchBy_run_booleanText truthy falsy same)

/-! ## (3) Errors -/

/-- No struct is open. -/
def IsClosed (schema : Schema) : Prop :=
  ∀ fields signature, .struct fields (some signature) ∉ schema.parts true

/-- A closed schema is closed in its parts. -/
theorem IsClosed.mono {schema inner : Schema} (closed : schema.IsClosed)
    (inside : ∀ part, part ∈ inner.parts true → part ∈ schema.parts true) : inner.IsClosed :=
  fun fields signature held => closed fields signature (inside _ held)

/-- **Where no struct is open, a schema goes alike on values that are the same**: it fails on both
with one error. -/
theorem goesAlike_of_isSame {schema : Schema} {left right : Value} (meets : schema.Meets left)
    (closed : schema.IsClosed) (rightDistinct : right.HasDistinctKeys)
    (same : IsSame left right) : schema.renamed.GoesAlike direction IsSame left right := by
  induction meets generalizing right with
  | leaf kind value => exact goesAlike_leaf same
  | @object fields index _ _ names applies unique _ _ declaredInduction _ =>
      obtain ⟨rights, rfl⟩ := same.exists_members
      refine goesAlike_struct isCongruence_isSame names applies unique rightDistinct.nodup_keys
        ⟨fun field held => ?_, fun signature isOpen => ?_⟩
      · have closedType : field.type.IsClosed :=
          closed.mono fun _ inner => mem_parts_of_field held inner
        exact same.rel_find? unique rightDistinct fun inner _ found distinct alike =>
          declaredInduction field held _ inner found closedType distinct alike
      · -- without an index type nothing looks at the undeclared members
        cases isOpen
        exact absurd (mem_parts_self _) (closed fields signature)
  | noObject applies other =>
      exact goesAlike_struct_of_not_object applies other (same.members?_eq_none other) same.kind_eq
  | @array elements rest isReadonly _ _ applies _ slotsInduction =>
      obtain ⟨rights, rfl⟩ := same.exists_items
      refine goesAlike_tuple isCongruence_isSame applies (same.corresponds rightDistinct
        fun position item _ found distinct alike => ?_)
      have closedSlot : (slotType elements rest position).IsClosed := by
        refine slotType_induction ?_ ?_ ?_ position
        · exact fun element held => closed.mono fun _ inner => mem_parts_of_element held inner
        · exact fun type held => closed.mono fun _ inner => mem_parts_of_rest held inner
        · simp [IsClosed, unknown, parts]
      exact slotsInduction position item found closedSlot distinct alike
  | noArray applies other =>
      exact goesAlike_tuple_of_not_array applies other (same.items?_eq_none other) same.kind_eq
  | timestampText value =>
      exact goesAlike_codec_leaf (Conversion.matchBy_run_timestampText same)
  | booleanText truthy falsy value =>
      exact goesAlike_codec_leaf (Conversion.matchBy_run_booleanText truthy falsy same)

/-! ## (4) Both -/

/-- **Transcoding respects sameness**: values that are the same, whatever the order of their
members, become values that are the same, or both are rejected; and where no struct is open, both
are rejected with one error. -/
theorem transcode_isSame {document : SchemaDocument} {schema applied : Schema}
    (describes : document.toSchema = .ok schema) (applies : schema.applyRenames = .ok applied)
    {left right : Value} (leftDistinct : left.HasDistinctKeys)
    (rightDistinct : right.HasDistinctKeys) (same : IsSame left right) :
    (∃ leftOutput rightOutput, applied.transcode direction left = .ok leftOutput ∧
      applied.transcode direction right = .ok rightOutput ∧ IsSame leftOutput rightOutput) ∨
    ∃ leftError rightError, applied.transcode direction left = .error leftError ∧
      applied.transcode direction right = .error rightError ∧
      (schema.IsClosed → leftError = rightError) := by
  have meets := meets_of_documented (SchemaDocument.documented_of_toSchema describes) applies
    leftDistinct
  have agree : OutcomesAgree direction schema left right :=
    outcomesAgree_of_isSame meets rightDistinct same
  -- in a closed schema the runs go alike up to their errors
  have alike : schema.IsClosed → schema.renamed.GoesAlike direction IsSame left right :=
    fun closed => goesAlike_of_isSame meets closed rightDistinct same
  rw [OutcomesAgree, outcome?, outcome?, renamed_of_applyRenames applies] at agree
  rw [renamed_of_applyRenames applies] at alike
  rcases eq_none_or_eq_some_of_rel agree with
    ⟨failsLeft, failsRight⟩ | ⟨leftOutput, rightOutput, left, right, sameOutputs⟩
  · obtain ⟨leftError, leftFails⟩ := toOption_eq_none_iff.mp failsLeft
    obtain ⟨rightError, rightFails⟩ := toOption_eq_none_iff.mp failsRight
    refine Or.inr ⟨leftError, rightError, leftFails, rightFails, fun closed => ?_⟩
    have matched := alike closed "" id
    rw [transcode] at leftFails rightFails
    rw [leftFails, rightFails] at matched
    cases matched with
    | error => rfl
  · exact Or.inl ⟨leftOutput, rightOutput, toOption_eq_some_iff.mp left,
      toOption_eq_some_iff.mp right, sameOutputs⟩

-- in an open struct the order of the members decides which of two failures comes first
example :
    let flags : Schema := .struct [] (some ⟨.string, booleanText "Y" "N", false⟩)
    flags.decode (.object [("a", .null), ("b", .null)]) =
        .error ⟨"/a", .wrongKind "string" "null"⟩ ∧
      flags.decode (.object [("b", .null), ("a", .null)]) =
        .error ⟨"/b", .wrongKind "string" "null"⟩ := ⟨rfl, rfl⟩

/-- Two parcels whose members stand in another order, in the parcel and in a part that no type is
given to, are both rejected for the timestamp. -/
theorem transcode_isSame_parcel :
    let document : SchemaDocument := .struct
      [⟨"sent", .timestampText, false, false, some "at", []⟩,
        ⟨"paid", .booleanText "Y" "N", true, false, none, []⟩,
        ⟨"note", .leaf .unknown, true, false, none, []⟩] none
    let schema : Schema := .struct
      [⟨"sent", timestampText, false, false, some "at", []⟩,
        ⟨"paid", booleanText "Y" "N", true, false, none, []⟩,
        ⟨"note", .leaf .unknown, true, false, none, []⟩] none
    let left : Value := .object [("paid", .null), ("at", .null),
      ("note", .object [("a", .null), ("b", .bool true)])]
    let right : Value := .object [("note", .object [("b", .bool true), ("a", .null)]),
      ("at", .null), ("paid", .null)]
    document.toSchema = .ok schema ∧ schema.IsClosed ∧ IsSame left right ∧
      ((∃ leftOutput rightOutput, schema.renamed.transcode .decode left = .ok leftOutput ∧
        schema.renamed.transcode .decode right = .ok rightOutput ∧
        IsSame leftOutput rightOutput) ∨
      ∃ leftError rightError, schema.renamed.transcode .decode left = .error leftError ∧
        schema.renamed.transcode .decode right = .error rightError ∧
        (schema.IsClosed → leftError = rightError)) ∧
      schema.renamed.transcode .decode left = .error ⟨"/at", .wrongKind "string" "null"⟩ := by
  intro document schema left right
  have describes : document.toSchema = .ok schema := rfl
  have leftDistinct : left.HasDistinctKeys := by
    simp [left, HasDistinctKeys, MembersHaveDistinctKeys, keys]
  have rightDistinct : right.HasDistinctKeys := by
    simp [right, HasDistinctKeys, MembersHaveDistinctKeys, keys]
  have same : IsSame left right := by decide
  have closed : schema.IsClosed := by
    simp [schema, IsClosed, parts, partsOfFields, partsOfIndex, timestampText, booleanText]
  exact ⟨describes, closed, same, transcode_isSame describes rfl leftDistinct rightDistinct same,
    rfl⟩

end Schema

end WireSchema

import WireSchema.Proofs.RoundTrip.Codecs

/-! # Conforming values

Which values a documented schema lets through: those that conform to it on the side they come from.
Required fields are there, values conform to the types of their fields, an open struct holds no key
in the way of a field, a tuple has items for its required elements and no more than it has slots,
and what stands at a codec is something that the codec converts. -/

namespace WireSchema.Schema

open Members

/-! ## (1) Conformance -/

/-- **A value conforms** to a schema on a side. -/
inductive Conforms (side : Side) : Schema → Value → Prop
  /-- Any value conforms to a leaf. -/
  | leaf (kind : LeafType) (value : Value) : Conforms side (.leaf kind) value
  /-- An object in which the required fields are present and the values of all declared members
  conform. In an open struct, those of the others conform too, and their keys are names of fields on
  neither side. -/
  | struct {fields : List (Field Schema)} {index : Option (IndexSignature Schema)}
      {members : List (String × Value)}
      (present : ∀ field ∈ fields, field.isOptional = false →
        (Renames.ofFields fields).nameOn side field.name ∈ keys members)
      (declared : ∀ field ∈ fields, ∀ value,
        find? members ((Renames.ofFields fields).nameOn side field.name) = some value →
          Conforms side field.type value)
      (clear : ∀ signature ∈ index, ∀ key ∈ keys members, key ∉ namesOn side fields →
        key ∉ namesOn side.opposite fields)
      (others : ∀ signature ∈ index, ∀ key ∉ namesOn side fields, ∀ value,
        find? members key = some value → Conforms side signature.value value) :
      Conforms side (.struct fields index) (.object members)
  /-- An array with an item for each required element, and without a rest type no more items than
  there are elements, in which each item conforms to its slot. -/
  | tuple {elements : List (Element Schema)} {rest : Option Schema} {isReadonly : Bool}
      {items : List Value} (enough : requiredCount elements ≤ items.length)
      (few : rest = none → items.length ≤ elements.length)
      (each : ∀ position item, items[position]? = some item →
        Conforms side (slotType elements rest position) item) :
      Conforms side (.tuple elements rest isReadonly) (.array items)
  /-- The text of a timestamp, on either side. -/
  | timestampText {text : String} {timestamp : Timestamp}
      (denotes : Timestamp.parse text = .ok timestamp) :
      Conforms side .timestampText (.string text)
  /-- A timestamp on the decoded side. -/
  | timestamp (isDecoded : side = .decoded) (timestamp : Timestamp) :
      Conforms side .timestampText (.date timestamp)
  /-- One of the two texts of truth values on the encoded side. -/
  | booleanText {truthy falsy text : String} (isEncoded : side = .encoded)
      (literal : text = truthy ∨ text = falsy) :
      Conforms side (.booleanText truthy falsy) (.string text)
  /-- A truth value on the decoded side. -/
  | boolean {truthy falsy : String} (isDecoded : side = .decoded) (truth : Bool) :
      Conforms side (.booleanText truthy falsy) (.bool truth)

section Conforms

variable {side : Side} {fields : List (Field Schema)} {index : Option (IndexSignature Schema)}
  {members : List (String × Value)} {elements : List (Element Schema)} {rest : Option Schema}
  {isReadonly : Bool} {items : List Value}

/-- An object conforms to a struct exactly if its declared members do, required ones being present,
and each other member has a key the far side does not declare and conforms to the index signature,
if there is one. -/
theorem conforms_struct_iff :
    (Schema.struct fields index).Conforms side (.object members) ↔
      (∀ field ∈ fields,
        (field.isOptional = false →
          (Renames.ofFields fields).nameOn side field.name ∈ keys members) ∧
        ∀ value, find? members ((Renames.ofFields fields).nameOn side field.name) = some value →
          field.type.Conforms side value) ∧
      ∀ signature ∈ index, ∀ key ∉ namesOn side fields, ∀ value,
        find? members key = some value →
          key ∉ namesOn side.opposite fields ∧ signature.value.Conforms side value := by
  constructor
  · rintro ⟨⟩
    next present declared clear others =>
      refine ⟨fun field held => ⟨present field held, declared field held⟩, ?_⟩
      intro signature isOpen key undeclared value found
      exact ⟨clear signature isOpen key (mem_keys_of_find? found) undeclared,
        others signature isOpen key undeclared value found⟩
  · rintro ⟨declared, others⟩
    refine .struct (fun field held => (declared field held).1)
      (fun field held => (declared field held).2) ?_
      fun signature isOpen key undeclared value found =>
        (others signature isOpen key undeclared value found).2
    intro signature isOpen key held undeclared
    obtain ⟨value, found⟩ := Option.isSome_iff_exists.mp ((contains_iff members key).mpr held)
    exact (others signature isOpen key undeclared value found).1

/-- An array conforms to a tuple exactly if its length is admitted and each item conforms to the
type at its position. -/
theorem conforms_tuple_iff :
    (Schema.tuple elements rest isReadonly).Conforms side (.array items) ↔
      admitsArity elements rest.isSome items.length = true ∧
      ∀ position item, items[position]? = some item →
        (slotType elements rest position).Conforms side item := by
  have fits : admitsArity elements rest.isSome items.length = true ↔
      requiredCount elements ≤ items.length ∧ (rest = none → items.length ≤ elements.length) := by
    rw [admitsArity, Bool.and_eq_true, decide_eq_true_eq]
    cases rest <;> simp
  rw [fits]
  constructor
  · rintro ⟨⟩
    next enough few each => exact ⟨⟨enough, few⟩, each⟩
  · rintro ⟨⟨enough, few⟩, each⟩
    exact .tuple enough few each

end Conforms

/-! ## (2) What goes through -/

section Through

variable {direction : Direction} {fields : List (Field Schema)}
  {index : Option (IndexSignature Schema)} {members : List (String × Value)}
  {elements : List (Element Schema)} {rest : Option Schema} {isReadonly : Bool}
  {items : List Value}

/-- The members of a struct cross exactly when the object conforms, where the values inside cross
exactly when they do. -/
theorem isSome_cross?_iff (unique : (keys members).Nodup)
    (declaredCross : ∀ field ∈ fields, ∀ value,
      find? members ((Renames.ofFields fields).nameOn direction.inputSide field.name) = some value →
        ((renamedPart direction field value).isSome ↔
          field.type.Conforms direction.inputSide value))
    (othersCross : ∀ signature ∈ index, ∀ key value, find? members key = some value →
      ((renamedOpenPart direction signature value).isSome ↔
        signature.value.Conforms direction.inputSide value)) :
    (cross? direction fields index members).isSome ↔
      (Schema.struct fields index).Conforms direction.inputSide (.object members) := by
  rw [cross?, translate?_isSome_iff, conforms_struct_iff, List.forall_mem_map,
    readNames_fieldRule, writeNames_fieldRule]
  refine and_congr ?_ ?_
  · refine forall₂_congr fun field held => ?_
    rw [Rule.admits_iff]
    refine and_congr Iff.rfl (forall₂_congr fun value found => ?_)
    exact declaredCross field held value found
  · constructor
    · intro each signature isOpen key undeclared value found
      have through := each _ (Option.mem_map_of_mem _ isOpen) (key, value) (mem_of_find? found)
        undeclared
      exact ⟨through.1, (othersCross signature isOpen key value found).mp through.2⟩
    · intro each part kept member held undeclared
      obtain ⟨signature, isOpen, rfl⟩ := Option.map_eq_some_iff.mp kept
      have found : find? members member.1 = some member.2 := find?_of_mem unique held
      have conforms := each signature isOpen member.1 undeclared member.2 found
      exact ⟨conforms.1, (othersCross signature isOpen _ _ found).mpr conforms.2⟩

/-- An array goes through a tuple exactly when it conforms, where its items go through exactly when
they do. -/
theorem isSome_outcome?_tuple_iff {applied : Schema}
    (applies : (Schema.tuple elements rest isReadonly).applyRenames = .ok applied)
    (eachCrosses : ∀ position item, items[position]? = some item →
      (((slotType elements rest position).renamed.outcome? direction item).isSome ↔
        (slotType elements rest position).Conforms direction.inputSide item)) :
    ((Schema.tuple elements rest isReadonly).renamed.outcome? direction (.array items)).isSome ↔
      (Schema.tuple elements rest isReadonly).Conforms direction.inputSide (.array items) := by
  rw [outcome?_renamed_tuple applies, conforms_tuple_iff]
  by_cases admitted : admitsArity elements rest.isSome items.length = true
  · rw [if_pos admitted, Option.isSome_map, Items.translate?_isSome_iff]
    simp only [admitted, true_and]
    exact forall₃_congr eachCrosses
  · simp [admitted]

/-- A value goes through the codec of timestamps exactly when it is the text of one or, where
timestamps are encoded, a timestamp. -/
theorem isSome_outcome?_timestampText_iff (value : Value) :
    (timestampText.outcome? direction value).isSome ↔
      timestampText.Conforms direction.inputSide value := by
  have crosses : (timestampText.outcome? direction value).isSome ↔
      ∃ output, Conversion.timestampText.run direction value = .ok output := by
    rw [timestampText, outcome?_codec_leaf, Option.isSome_iff_exists]
    simp only [toOption_eq_some_iff]
  rw [crosses]
  -- encoding takes timestamps and their texts, decoding only the texts
  cases direction with
  | encode =>
      constructor
      · rintro ⟨output, encodes⟩
        obtain ⟨timestamp, stands, _⟩ := Conversion.encodeTimestamp_eq_ok_iff.mp encodes
        cases value with
        | date timestamp => exact .timestamp rfl timestamp
        | string text => exact .timestampText (toOption_eq_some_iff.mp stands)
        | _ => cases stands
      · intro conforms
        have stands : ∃ timestamp, value.timestamp? = some timestamp := by
          cases conforms with
          | timestampText denotes => exact ⟨_, toOption_eq_some_iff.mpr denotes⟩
          | timestamp _ timestamp => exact ⟨timestamp, rfl⟩
        obtain ⟨timestamp, stands⟩ := stands
        exact ⟨_, Conversion.encodeTimestamp_eq_ok_iff.mpr ⟨timestamp, stands, rfl⟩⟩
  | decode =>
      constructor
      · rintro ⟨output, decodes⟩
        obtain ⟨text, timestamp, rfl, denotes, _⟩ :=
          Conversion.decodeTimestamp_eq_ok_iff.mp decodes
        exact .timestampText denotes
      · intro conforms
        cases conforms with
        | timestampText denotes =>
            exact ⟨_, Conversion.decodeTimestamp_eq_ok_iff.mpr ⟨_, _, rfl, denotes, rfl⟩⟩
        | timestamp isDecoded _ => cases isDecoded

/-- A value goes through a codec of truth values exactly when it is one of the two texts or, where
truth values are encoded, a truth value. -/
theorem isSome_outcome?_booleanText_iff (truthy falsy : String) (value : Value) :
    ((booleanText truthy falsy).outcome? direction value).isSome ↔
      (booleanText truthy falsy).Conforms direction.inputSide value := by
  rw [booleanText, outcome?_codec_leaf]
  -- encoding takes truth values only, decoding the two texts
  cases direction with
  | encode =>
      constructor
      · intro crosses
        cases value with
        | bool truth => exact .boolean rfl truth
        | _ => cases crosses
      · intro conforms
        cases conforms with
        | booleanText isEncoded _ => cases isEncoded
        | boolean _ truth => rfl
  | decode =>
      show (Conversion.decodeBoolean truthy falsy value).toOption.isSome ↔ _
      constructor
      · intro crosses
        cases value with
        | string text =>
            refine .booleanText rfl (by_contra fun neither => ?_)
            rw [not_or] at neither
            simp [Conversion.decodeBoolean, neither, Except.toOption] at crosses
        | _ => cases crosses
      · intro conforms
        cases conforms with
        | @booleanText _ _ text _ literal =>
            rw [Conversion.decodeBoolean]
            by_cases isTruthy : text = truthy
            · rw [if_pos isTruthy]
              rfl
            · rw [if_neg isTruthy, if_pos (literal.resolve_left isTruthy)]
              rfl
        | boolean isDecoded _ => cases isDecoded

end Through

/-- **A value goes through** a documented schema with its renames applied exactly when it conforms
to the schema on its own side. -/
theorem isSome_outcome?_renamed_iff {schema applied : Schema} (documented : schema.Documented)
    (applies : schema.applyRenames = .ok applied) {value : Value}
    (distinct : value.HasDistinctKeys) (direction : Direction) :
    (schema.renamed.outcome? direction value).isSome ↔
      schema.Conforms direction.inputSide value := by
  have meets := meets_of_documented documented applies distinct
  clear documented applies distinct
  induction meets with
  | leaf kind value =>
      rw [renamed_leaf, outcome?_leaf]
      exact iff_of_true rfl (.leaf kind value)
  | object names applies unique _ _ declaredInduction othersInduction =>
      rw [outcome?_renamed_struct names applies direction unique, Option.isSome_map]
      refine isSome_cross?_iff unique ?_ othersInduction
      exact fun field held value found => declaredInduction field held _ value found
  | noObject applies other =>
      rw [outcome?_renamed_struct_of_not_object applies direction other]
      exact iff_of_false Bool.false_ne_true fun conforms => by cases conforms; cases other
  | array applies _ slotsInduction => exact isSome_outcome?_tuple_iff applies slotsInduction
  | noArray applies other =>
      rw [outcome?_renamed_tuple_of_not_array applies direction other]
      exact iff_of_false Bool.false_ne_true fun conforms => by cases conforms; cases other
  | timestampText value => exact isSome_outcome?_timestampText_iff value
  | booleanText truthy falsy value => exact isSome_outcome?_booleanText_iff truthy falsy value

/-! ## (3) Whole runs -/

/-- **Decoding succeeds exactly where a value conforms on the encoded side**, and encoding exactly
where it conforms on the decoded side. -/
theorem succeeds_iff_conforms {document : SchemaDocument} {schema applied : Schema}
    (describes : document.toSchema = .ok schema) (applies : schema.applyRenames = .ok applied)
    {value : Value} (distinct : value.HasDistinctKeys) :
    ((∃ output, applied.decode value = .ok output) ↔ schema.Conforms .encoded value) ∧
      ((∃ output, applied.encode value = .ok output) ↔ schema.Conforms .decoded value) := by
  have documented := SchemaDocument.documented_of_toSchema describes
  have both : ∀ direction, (∃ output, applied.transcode direction value = .ok output) ↔
      schema.Conforms direction.inputSide value := by
    intro direction
    rw [← isSome_outcome?_renamed_iff documented applies distinct direction,
      renamed_of_applyRenames applies, Option.isSome_iff_exists]
    simp only [outcome?, toOption_eq_some_iff]
  exact ⟨both .decode, both .encode⟩

/-- An open order goes through when its timestamp stands under the written key, so that it conforms
on the encoded side. -/
theorem succeeds_iff_conforms_order :
    let document : SchemaDocument := .struct
      [⟨"placed", .timestampText, false, false, some "at", []⟩,
        ⟨"paid", .booleanText "Y" "N", true, false, none, []⟩]
      (some ⟨none, .leaf .unknown, false⟩)
    let order : Schema := .struct
      [⟨"placed", timestampText, false, false, some "at", []⟩,
        ⟨"paid", booleanText "Y" "N", true, false, none, []⟩]
      (some ⟨.string, .leaf .unknown, false⟩)
    let written : Value := .object
      [("note", .null), ("at", .string "1970-01-01T00:00:00Z"), ("paid", .string "N")]
    document.toSchema = .ok order ∧
      ((∃ output, order.renamed.decode written = .ok output) ↔ order.Conforms .encoded written) ∧
      ((∃ output, order.renamed.encode written = .ok output) ↔ order.Conforms .decoded written) ∧
      order.Conforms .encoded written := by
  intro document order written
  have describes : document.toSchema = .ok order := rfl
  have distinct : written.HasDistinctKeys := by
    simp [written, Value.HasDistinctKeys, Value.MembersHaveDistinctKeys, keys]
  obtain ⟨decodes, encodes⟩ := succeeds_iff_conforms describes rfl distinct
  have output : order.renamed.decode written = .ok (.object
      [("placed", .date ⟨0, 0⟩), ("paid", .bool false), ("note", .null)]) := by decide +kernel
  exact ⟨describes, decodes, encodes, decodes.mp ⟨_, output⟩⟩

end WireSchema.Schema

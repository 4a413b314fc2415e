import WireSchema.Proofs.Renaming.Bijection
import WireSchema.Proofs.RoundTrip.Codecs
import WireSchema.Proofs.Value.DistinctKeys

/-! # Outputs and the places that they come from

Where no conversion renames keys, everything in an output stands where it stood in the value: each
place of the output is a place of the value (`outputsTrace_of_keepsKeys`). Where a key map renames
keys, what stands under a key of the output stood under the key that stands for it
(`find?_of_mem_translated`). -/

namespace WireSchema

open Members

/-! ## (1) Values -/

namespace Value

/-- **An output traces to a value**: where the value repeats no key, the output repeats none either,
and each of its places is a place of the value. -/
def TracesTo (output value : Value) : Prop :=
  value.HasDistinctKeys → output.HasDistinctKeys ∧
    ∀ segments, (output.descend? segments).isSome → (value.descend? segments).isSome

namespace TracesTo

variable {output middle value : Value}

/-- A value traces to itself. -/
theorem refl (value : Value) : value.TracesTo value := fun distinct => ⟨distinct, fun _ => id⟩

/-- What traces to what traces to a value traces to the value. -/
theorem trans (late : output.TracesTo middle) (early : middle.TracesTo value) :
    output.TracesTo value := by
  intro distinct
  obtain ⟨middleDistinct, middlePlaces⟩ := early distinct
  obtain ⟨outputDistinct, outputPlaces⟩ := late middleDistinct
  exact ⟨outputDistinct, fun segments place => middlePlaces segments (outputPlaces segments place)⟩

/-- An output with nothing inside traces to anything. -/
theorem of_simple (noMembers : output.members? = none) (noItems : output.items? = none) :
    output.TracesTo value := by
  intro _
  constructor
  · cases output with
    | array items => cases noItems
    | object members => cases noMembers
    | _ => simp [HasDistinctKeys]
  · rintro (_ | ⟨segment, segments⟩) place
    · cases value <;> rfl
    · cases output with
      | array items => cases noItems
      | object members => cases noMembers
      | _ => cases place

/-- An object traces to another one whose members of the same names its own ones trace to. -/
theorem object {outputs members : List (String × Value)} (unique : (keys outputs).Nodup)
    (each : (keys members).Nodup → ∀ output ∈ outputs,
      ∃ inner, find? members output.1 = some inner ∧ output.2.TracesTo inner) :
    (Value.object outputs).TracesTo (.object members) := by
  intro distinct
  constructor
  · rw [hasDistinctKeys_object]
    refine ⟨unique, fun output held => ?_⟩
    obtain ⟨inner, found, traces⟩ := each distinct.nodup_keys output held
    exact (traces (distinct.of_find? found)).1
  · rintro (_ | ⟨segment, segments⟩) place
    · rfl
    · obtain ⟨inner, within⟩ := Option.isSome_iff_exists.mp place
      obtain ⟨output, outputFound, below⟩ := Option.bind_eq_some_iff.mp within
      obtain ⟨inner, found, traces⟩ :=
        each distinct.nodup_keys (segment, output) (mem_of_find? outputFound)
      have place := (traces (distinct.of_find? found)).2 segments (by rw [below]; rfl)
      rw [descend?]
      show ((find? members segment).bind fun value => _).isSome
      rw [found]
      exact place

/-- An array traces to another one whose items at the same positions its own ones trace to. -/
theorem array {outputs items : List Value}
    (each : ∀ (position : Nat) (output : Value), outputs[position]? = some output →
      ∃ inner, items[position]? = some inner ∧ output.TracesTo inner) :
    (Value.array outputs).TracesTo (.array items) := by
  intro distinct
  constructor
  · rw [hasDistinctKeys_array]
    intro output held
    obtain ⟨position, outputFound⟩ := List.mem_iff_getElem?.mp held
    obtain ⟨inner, found, traces⟩ := each position output outputFound
    exact (traces (distinct.of_getElem? found)).1
  · rintro (_ | ⟨segment, segments⟩) place
    · rfl
    · obtain ⟨inner, within⟩ := Option.isSome_iff_exists.mp place
      obtain ⟨position, isPosition, inside⟩ := Option.bind_eq_some_iff.mp within
      obtain ⟨output, outputFound, below⟩ := Option.bind_eq_some_iff.mp inside
      obtain ⟨inner, found, traces⟩ := each position output outputFound
      have place := (traces (distinct.of_getElem? found)).2 segments (by rw [below]; rfl)
      rw [descend?]
      show ((Pointer.index? segment).bind fun position => _).isSome
      rw [isPosition]
      show (items[position]?.bind fun item => _).isSome
      rw [found]
      exact place

end TracesTo

end Value

/-! ## (2) Key maps -/

/-- What a key map has carried over stood under the key that stands for it, if there is one, and
else under the same key. -/
theorem KeyMap.find?_of_mem_translated {map : KeyMap} (apart : map.TellsApart) {source : Side}
    {members outputs : List (String × Value)} (unique : (keys members).Nodup)
    (translated : translate? (map.pairs.map (rule source)) (keepingOthers map.isOpen) members =
      some outputs) {key : String} {inner : Value} (held : (key, inner) ∈ outputs) :
    find? members ((map.keyOn? key source).getD key) = some inner := by
  rcases mem_translate? translated held with
    ⟨_, ruled, value, found, same, written⟩ | ⟨part, kept, value, memberHeld, unread, same⟩
  · obtain ⟨pair, pairHeld, rfl⟩ := List.mem_map.mp ruled
    cases same
    have stands : map.keyOn? key source = some (pair.on source) :=
      (keyOn?_eq_some_iff apart).mpr ⟨pair, pairHeld, written, rfl⟩
    rw [stands]
    exact found
  · -- an undeclared member is not carried over to the name of a field
    have unwritten := (undeclared_of_translate? translated kept memberHeld unread).1
    rw [writeNames_rule] at unwritten
    have none : map.keyOn? key source = none :=
      Option.not_isSome_iff_eq_none.mp (mt (isSome_keyOn?_iff map key source).mp unwritten)
    rw [eq_some_of_mem_keepingOthers kept] at same
    cases same
    rw [none]
    exact find?_of_mem unique memberHeld

namespace Schema

variable {direction : Direction}

/-! ## (3) Schemas -/

/-- Every name that a key map has on a side is the name of a field, if a struct is on that side. -/
def NamesFields (map : KeyMap) (side : Side) (schema : Schema) : Prop :=
  ∀ fields ∈ schema.fields?, ∀ pair ∈ map.pairs, pair.on side ∈ fields.map Field.name

/-- **A schema without conversions from elsewhere**: its codecs are those that documents can name,
and codecs between structs that rename their keys. -/
inductive HasOwnConversions : Schema → Prop
  /-- A leaf. -/
  | leaf (kind : LeafType) : HasOwnConversions (.leaf kind)
  /-- A struct. -/
  | struct {fields : List (Field Schema)} {index : Option (IndexSignature Schema)}
      (types : ∀ field ∈ fields, HasOwnConversions field.type)
      (indexType : ∀ signature ∈ index, HasOwnConversions signature.value) :
      HasOwnConversions (.struct fields index)
  /-- A tuple. -/
  | tuple {elements : List (Element Schema)} {rest : Option Schema} {isReadonly : Bool}
      (types : ∀ element ∈ elements, HasOwnConversions element.type)
      (restType : ∀ type ∈ rest, HasOwnConversions type) :
      HasOwnConversions (.tuple elements rest isReadonly)
  /-- Timestamps as texts. -/
  | timestampText : HasOwnConversions timestampText
  /-- Truth values as texts. -/
  | booleanText (truthy falsy : String) : HasOwnConversions (booleanText truthy falsy)
  /-- Objects with other keys on the encoded side. -/
  | keys {source target : Schema} {map : KeyMap} (ofSource : HasOwnConversions source)
      (ofTarget : HasOwnConversions target) (apart : map.TellsApart)
      (namesSource : NamesFields map .encoded source)
      (namesTarget : NamesFields map .decoded target) :
      HasOwnConversions (.codec source target (.keys map))

/-- What a schema puts out traces to what it is given. -/
def OutputsTrace (direction : Direction) (schema : Schema) : Prop :=
  ∀ value output, schema.outcome? direction value = some output → output.TracesTo value

section Outcomes

variable {fields : List (Field Schema)} {index : Option (IndexSignature Schema)}

/-- The output of a leaf is the value itself. -/
theorem outputsTrace_leaf (kind : LeafType) : (Schema.leaf kind).OutputsTrace direction := by
  intro value output gives
  rw [outcome?_leaf] at gives
  cases gives
  exact .refl value

/-- What a struct puts out traces to the object, where its types put out what traces. -/
theorem tracesTo_of_structOutcome? {members : List (String × Value)} {output : Value}
    (declaredTrace : ∀ field ∈ fields, field.type.OutputsTrace direction)
    (othersTrace : ∀ signature ∈ index, signature.value.OutputsTrace direction)
    (gives : structOutcome? direction fields index members = some output) :
    output.TracesTo (.object members) := by
  obtain ⟨outputs, translated, rfl⟩ := Option.map_eq_some_iff.mp gives
  refine .object (nodup_keys_ofList outputs) fun unique entry held => ?_
  rcases mem_translate? translated (mem_of_mem_ofList held) with
    ⟨_, ruled, value, found, becomes, written⟩ | ⟨part, kept, value, memberHeld, _, becomes⟩
  · obtain ⟨field, fieldHeld, rfl⟩ := List.mem_map.mp ruled
    refine ⟨value, ?_, declaredTrace field fieldHeld value entry.2 becomes⟩
    rw [← written]
    exact found
  · obtain ⟨signature, isOpen, rfl⟩ := Option.map_eq_some_iff.mp kept
    exact ⟨value, find?_of_mem unique memberHeld,
      othersTrace signature isOpen value entry.2 becomes⟩

/-- What a tuple puts out traces to the array, where its types put out what traces. -/
theorem tracesTo_of_tupleOutcome? {elements : List (Element Schema)} {rest : Option Schema}
    {items : List Value} {output : Value}
    (slotsTrace : ∀ position, (slotType elements rest position).OutputsTrace direction)
    (gives : tupleOutcome? direction elements rest items = some output) :
    output.TracesTo (.array items) := by
  rw [tupleOutcome?] at gives
  split at gives
  · obtain ⟨outputs, translated, rfl⟩ := Option.map_eq_some_iff.mp gives
    refine .array fun position output outputFound => ?_
    rw [Items.getElem?_translate? translated] at outputFound
    obtain ⟨inner, found, becomes⟩ := Option.bind_eq_some_iff.mp outputFound
    exact ⟨inner, found, slotsTrace position inner output becomes⟩
  · cases gives

/-- What a key map puts out that has no other key for any traces to the object. -/
theorem tracesTo_of_carry {map : KeyMap} (apart : map.TellsApart)
    (plain : ∀ key side, map.keyOn? key side = none) {source : Side} {value output : Value}
    (carries : map.carry source value = .ok output) : output.TracesTo value := by
  obtain ⟨members, outputs, rfl, translated, rfl⟩ := (KeyMap.carry_eq_ok_iff _ _ _ _).mp carries
  refine .object (nodup_keys_ofList outputs) fun unique entry held => ?_
  have found := KeyMap.find?_of_mem_translated apart unique translated (mem_of_mem_ofList held)
  rw [plain] at found
  exact ⟨entry.2, found, .refl _⟩

end Outcomes

/-- What the conversion of timestamps gives is simple. -/
theorem outputsTrace_timestampText : timestampText.OutputsTrace direction := by
  intro value output gives
  rw [timestampText, outcome?_codec_leaf, toOption_eq_some_iff] at gives
  cases direction with
  | encode =>
      obtain ⟨_, _, rfl⟩ := Conversion.encodeTimestamp_eq_ok_iff.mp gives
      exact .of_simple rfl rfl
  | decode =>
      obtain ⟨_, _, _, _, rfl⟩ := Conversion.decodeTimestamp_eq_ok_iff.mp gives
      exact .of_simple rfl rfl

/-- What the conversion of truth values gives is simple. -/
theorem outputsTrace_booleanText (truthy falsy : String) :
    (booleanText truthy falsy).OutputsTrace direction := by
  intro value output gives
  rw [booleanText, outcome?_codec_leaf, toOption_eq_some_iff] at gives
  cases direction with
  | encode =>
      cases value with
      | bool truth =>
          cases gives
          exact .of_simple rfl rfl
      | _ => cases gives
  | decode =>
      cases value with
      | string text =>
          rw [Conversion.run, Conversion.decode, Conversion.decodeBoolean] at gives
          split at gives
          · cases gives
            exact .of_simple rfl rfl
          · split at gives
            · cases gives
              exact .of_simple rfl rfl
            · cases gives
      | _ => cases gives

/-- What a codec puts out traces to the value, where its three parts put out what traces. -/
theorem tracesTo_of_codecOutcome? {source target : Schema} {conversion : Conversion}
    (nearTraces : (nearSide source target direction).OutputsTrace direction)
    (converted : ∀ value output, conversion.run direction value = .ok output →
      output.TracesTo value)
    (farTraces : (farSide source target direction).OutputsTrace direction)
    {value output : Value}
    (gives : codecOutcome? direction source target conversion value = some output) :
    output.TracesTo value := by
  obtain ⟨near, walks, later⟩ := Option.bind_eq_some_iff.mp gives
  obtain ⟨carried, converts, behind⟩ := Option.bind_eq_some_iff.mp later
  have across := converted near carried (toOption_eq_some_iff.mp converts)
  exact ((farTraces carried output behind).trans across).trans (nearTraces value near walks)

/-- **Without renaming conversions, outputs trace to values**. -/
theorem outputsTrace_of_keepsKeys {schema : Schema} (own : schema.HasOwnConversions)
    (plain : schema.KeepsKeys) : schema.OutputsTrace direction := by
  induction own with
  | leaf kind => exact outputsTrace_leaf kind
  | struct _ _ typesInduction indexInduction =>
      intro value output gives
      cases value with
      | object members =>
          rw [outcome?_struct] at gives
          refine tracesTo_of_structOutcome? ?_ ?_ gives
          · intro field held
            exact typesInduction field held (plain.mono fun _ => mem_parts_of_field held)
          · intro signature held
            exact indexInduction signature held (plain.mono fun _ => mem_parts_of_index held)
      | _ =>
          rw [outcome?_struct_of_not_object _ _ _ rfl] at gives
          cases gives
  | @tuple elements rest _ _ _ typesInduction restInduction =>
      intro value output gives
      cases value with
      | array items =>
          rw [outcome?_tuple] at gives
          refine tracesTo_of_tupleOutcome? ?_ gives
          refine slotType_induction ?_ ?_ (outputsTrace_leaf .unknown)
          · intro element held
            exact typesInduction element held (plain.mono fun _ => mem_parts_of_element held)
          · intro type held
            exact restInduction type held (plain.mono fun _ => mem_parts_of_rest held)
      | _ =>
          rw [outcome?_tuple_of_not_array _ _ _ _ rfl] at gives
          cases gives
  | timestampText => exact outputsTrace_timestampText
  | booleanText truthy falsy => exact outputsTrace_booleanText truthy falsy
  | @keys source target map _ _ apart _ _ sourceInduction targetInduction =>
      have atSource := sourceInduction (plain.mono fun _ => mem_parts_of_source)
      have atTarget := targetInduction (plain.mono fun _ => mem_parts_of_target)
      intro value output gives
      rw [outcome?_codec] at gives
      refine tracesTo_of_codecOutcome? ?_ ?_ ?_ gives
      · exact nearSide_induction atSource atTarget direction
      · intro value output converts
        rw [Conversion.run_keys] at converts
        -- the keys that a map carries stay the same, since no conversion renames any
        exact tracesTo_of_carry apart (plain source target _ (mem_parts_self _)) converts
      · exact farSide_induction atSource atTarget direction

end Schema

end WireSchema

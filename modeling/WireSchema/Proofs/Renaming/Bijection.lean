import Mathlib.Data.List.Nodup
import WireSchema.Proofs.Renaming.Crossing

/-! # Key maps as bijections

The key map of a struct whose encoded names differ is a bijection between the names of its fields on
the two sides. Carrying an object over and back gives what the struct keeps of it, in some order;
and when it fails, the first thing that is wrong is reported
(`ofStruct_isPartialBijection`). -/

namespace WireSchema

open Members

/-- **The first item** of a list with a property. -/
def IsFirst {α : Type} (property : α → Prop) (items : List α) (item : α) : Prop :=
  ∃ before after, items = before ++ item :: after ∧ property item ∧
    ∀ other ∈ before, ¬property other

/-- What a search finds is the first item that passes its test. -/
theorem find?_eq_some_iff_isFirst {α : Type} {property : α → Prop} {test : α → Bool}
    (tests : ∀ item, test item = true ↔ property item) {items : List α} {item : α} :
    items.find? test = some item ↔ IsFirst property items item := by
  rw [List.find?_eq_some_iff_append, tests, IsFirst]
  constructor
  · rintro ⟨holds, before, after, rfl, none⟩
    refine ⟨before, after, rfl, holds, fun other held => ?_⟩
    rw [← tests]
    simpa using none other held
  · rintro ⟨before, after, rfl, holds, none⟩
    refine ⟨holds, before, after, rfl, fun other held => ?_⟩
    rw [Bool.not_eq_true', ← Bool.not_eq_true, tests]
    exact none other held

/-- Members with distinct names are the same up to order when the same is found under each name. -/
theorem Members.perm_of_find? {α : Type} {left right : List (String × α)}
    (leftKeys : (keys left).Nodup) (rightKeys : (keys right).Nodup)
    (same : ∀ name, find? left name = find? right name) : left.Perm right := by
  refine (List.perm_ext_iff_of_nodup leftKeys.of_map rightKeys.of_map).mpr ?_
  rintro ⟨name, entry⟩
  constructor
  · intro held
    exact mem_of_find? ((same name).symm.trans (find?_of_mem leftKeys held))
  · intro held
    exact mem_of_find? ((same name).trans (find?_of_mem rightKeys held))

/-- Among the members that are kept for their names stands what stood there, if the name is kept. -/
theorem Members.find?_filter {α : Type} (keeps : String → Bool) (members : List (String × α))
    (name : String) :
    find? (members.filter fun member => keeps member.1) name =
      if keeps name then find? members name else none := by
  induction members with
  | nil => simp
  | cons member rest induction =>
      obtain ⟨key, entry⟩ := member
      by_cases same : key = name
      · subst same
        cases kept : keeps key <;> simp [find?_cons, kept, induction]
      · cases kept : keeps key <;> simp [find?_cons, kept, same, induction]

/-- A conversion of keys carries over from the side that the input stands on. -/
theorem Conversion.run_keys (map : KeyMap) (direction : Direction) (value : Value) :
    (Conversion.keys map).run direction value = map.carry direction.inputSide value := by
  cases direction <;> rfl

namespace KeyMap

/-! ## (1) Names -/

/-- A key map **tells its fields apart**: on neither side is a name repeated. -/
def TellsApart (map : KeyMap) : Prop := ∀ side, (map.pairs.map (KeyPair.on · side)).Nodup

variable {map : KeyMap}

/-- The key that stands for another one on a side is the name that the same field has there. -/
theorem keyOn?_eq_some_iff (apart : map.TellsApart) {key other : String} {side : Side} :
    map.keyOn? key side = some other ↔
      ∃ pair ∈ map.pairs, pair.on side.opposite = key ∧ pair.on side = other := by
  rw [keyOn?, Option.map_eq_some_iff]
  constructor
  · rintro ⟨pair, found, rfl⟩
    exact ⟨pair, List.mem_of_find?_eq_some found, by simpa using List.find?_some found, rfl⟩
  · rintro ⟨pair, held, rfl, rfl⟩
    refine ⟨pair, ?_, rfl⟩
    cases found : map.pairs.find? fun other => other.on side.opposite == pair.on side.opposite with
    | none => simpa using List.find?_eq_none.mp found pair held
    | some first =>
        -- a field of the same name is the same field
        have sameName : first.on side.opposite = pair.on side.opposite := by
          simpa using List.find?_some found
        rw [List.inj_on_of_nodup_map (apart side.opposite) (List.mem_of_find?_eq_some found) held
          sameName]

/-- **The keys on the two sides stand for each other.** -/
theorem keyOn?_comm (apart : map.TellsApart) {key other : String} {side : Side} :
    map.keyOn? key side = some other ↔ map.keyOn? other side.opposite = some key := by
  rw [keyOn?_eq_some_iff apart, keyOn?_eq_some_iff apart, Side.opposite_opposite]
  exact exists_congr fun pair => and_congr_right fun _ => and_comm

/-- A key stands for another one exactly when it is declared. -/
theorem isSome_keyOn?_iff (map : KeyMap) (key : String) (side : Side) :
    (map.keyOn? key side).isSome ↔ key ∈ map.pairs.map (KeyPair.on · side.opposite) := by
  rw [keyOn?, Option.isSome_map, List.find?_isSome]
  simp

/-! ## (2) There and back -/

section Carried

variable {source : Side} {members outputs : List (String × Value)}

/-- Carrying over succeeds by a translation of the members. -/
theorem carry_eq_ok_iff (map : KeyMap) (source : Side) (value output : Value) :
    map.carry source value = .ok output ↔ ∃ members outputs, value = .object members ∧
      translate? (map.pairs.map (rule source)) (keepingOthers map.isOpen) members = some outputs ∧
      output = .object (ofList outputs) := by
  cases value with
  | object members =>
      rw [← toOption_eq_some_iff, toOption_carry_object, Option.map_eq_some_iff]
      simp [eq_comm]
  | _ => simp [carry]

variable (apart : map.TellsApart) (unique : (keys members).Nodup)
  (translated : translate? (map.pairs.map (rule source)) (keepingOthers map.isOpen) members =
    some outputs)

include apart unique translated in
/-- No key is written twice. -/
theorem nodup_keys_translated : (keys outputs).Nodup := by
  refine nodup_keys_translate? ?_ unique translated
  rw [writeNames_rule]
  exact apart source.opposite

include apart translated in
/-- The value of a field stands under its name on the other side. -/
theorem find?_translated {pair : KeyPair} (held : pair ∈ map.pairs) :
    find? outputs (pair.on source.opposite) = find? members (pair.on source) := by
  have written : (writeNames (map.pairs.map (rule source))).Nodup := by
    rw [writeNames_rule]
    exact apart source.opposite
  have moved := find?_translate?_write written translated (List.mem_map_of_mem held)
  rw [rule, Option.bind_fun_some] at moved
  exact moved

include apart translated in
/-- Carrying over and back keeps the members under their names. -/
theorem translate?_back :
    translate? (map.pairs.map (rule source.opposite)) (keepingOthers map.isOpen) outputs =
      translate? (map.pairs.map fun pair => Rule.keeping (pair.on source) pair.isOptional)
        (keepingOthers map.isOpen) members := by
  have twice : (fun pair => (rule source pair).andThen (rule source.opposite pair)) =
      fun pair => Rule.keeping (pair.on source) pair.isOptional := by
    funext pair
    simp [rule, Rule.andThen, Rule.keeping]
  have keptTwice : openThen (keepingOthers map.isOpen) (keepingOthers map.isOpen) =
      keepingOthers (α := Value) map.isOpen := by
    cases map.isOpen <;> rfl
  have written : (writeNames (map.pairs.map (rule source))).Nodup := by
    rw [writeNames_rule]
    exact apart source.opposite
  rw [translate?_translate? (rule source) (rule source.opposite) written (fun _ _ => rfl)
    (fun _ _ => rfl) translated, twice, keptTwice]

include apart unique translated in
/-- **What has been carried over can be carried back**: what comes back are the members that the map
keeps, in some order. -/
theorem exists_translated_back :
    ∃ back, translate? (map.pairs.map (rule source.opposite)) (keepingOthers map.isOpen) outputs =
        some back ∧
      back.Perm (members.filter fun member =>
        map.isOpen || (map.pairs.map (KeyPair.on · source)).contains member.1) := by
  have reads : readNames (map.pairs.map fun pair =>
      Rule.keeping (α := Value) (pair.on source) pair.isOptional) =
        map.pairs.map (KeyPair.on · source) := by
    simp [readNames, Rule.keeping]
  have writes : writeNames (map.pairs.map fun pair =>
      Rule.keeping (α := Value) (pair.on source) pair.isOptional) =
        map.pairs.map (KeyPair.on · source) := by
    simp [writeNames, Rule.keeping]
  -- there and back is a translation that keeps the names, and reads what the first one read
  rw [translate?_back apart translated]
  have kept : (translate? (map.pairs.map fun pair =>
      Rule.keeping (pair.on source) pair.isOptional) (keepingOthers map.isOpen)
      members).isSome := by
    rw [translate?_isSome_iff, List.forall_mem_map, reads, writes]
    refine ⟨fun pair held => ?_, fun part kept member _ unread => ⟨unread, ?_⟩⟩
    · have admits : (rule source pair).Admits members :=
        admits_of_translate? translated (List.mem_map_of_mem held)
      exact admits
    · cases isOpen : map.isOpen with
      | false => simp [keepingOthers, isOpen] at kept
      | true =>
          rw [isOpen] at kept
          cases kept
          rfl
  obtain ⟨back, returned⟩ := Option.isSome_iff_exists.mp kept
  refine ⟨back, returned, perm_of_find? ?_ ?_ fun key => ?_⟩
  · exact nodup_keys_translate? (by rw [writes]; exact apart source) unique returned
  · exact unique.sublist (List.filter_sublist.map Prod.fst)
  · rw [find?_filter (fun key => map.isOpen ||
      (map.pairs.map (KeyPair.on · source)).contains key)]
    -- a declared key comes back through its pair, any other one only if the map is open
    by_cases declared : key ∈ map.pairs.map (KeyPair.on · source)
    · obtain ⟨pair, held, rfl⟩ := List.mem_map.mp declared
      have ruleHeld : Rule.keeping (pair.on source) pair.isOptional ∈ map.pairs.map fun pair =>
          Rule.keeping (α := Value) (pair.on source) pair.isOptional := List.mem_map_of_mem held
      have found := find?_translate?_write (by rw [writes]; exact apart source) returned ruleHeld
      rw [Rule.keeping, Option.bind_fun_some] at found
      rw [found, if_pos (by simp [declared])]
    · rw [find?_translate?_other returned (by rw [writes]; exact declared)
        (by rw [reads]; exact declared)]
      cases map.isOpen <;> simp [keepingOthers, declared]

end Carried

end KeyMap

/-! ## (3) The key map of a struct -/

namespace Schema

variable {renames : Renames} {fields : List (Field Schema)} {index : Option (IndexSignature Schema)}

/-- **The ways in which the key map of a struct fails** for a value with the names of a side: what
is looked for first is told first. -/
inductive KeyMapFailure (source : Side) (renames : Renames) (fields : List (Field Schema))
    (index : Option (IndexSignature Schema)) : Value → TranscodingError → Prop
  /-- The value is no object. -/
  | wrongKind {value : Value} (other : value.members? = none) :
      KeyMapFailure source renames fields index value ⟨"", .wrongKind "object" value.kind⟩
  /-- A required field is missing, and it is the first one in declaration order. -/
  | missingKey {members : List (String × Value)} {field : Field Schema}
      (first : IsFirst (fun field => field.isOptional = false ∧
        renames.nameOn source field.name ∉ keys members) fields field) :
      KeyMapFailure source renames fields index (.object members)
        ⟨"", .missingKey (renames.nameOn source field.name) source⟩
  /-- An undeclared key is the name of a field on the other side, and it is the first one in the
  order of the members; no required field is missing. -/
  | keyCollision {members : List (String × Value)} {key : String} (isOpen : index.isSome)
      (complete : ∀ field ∈ fields, field.isOptional = false →
        renames.nameOn source field.name ∈ keys members)
      (first : IsFirst (fun key =>
        (key ∉ fields.map fun field => renames.nameOn source field.name) ∧
        key ∈ fields.map fun field => renames.nameOn source.opposite field.name)
        (keys members) key) :
      KeyMapFailure source renames fields index (.object members) ⟨"", .keyCollision key⟩

section Failures

variable {source : Side} {members : List (String × Value)} {isOpen : Bool}

/-- What the key map of a struct looks for in vain is a required field without a member. -/
theorem isMissing_ofField_iff (field : Field Schema) :
    (!field.isOptional && !contains members
      ((⟨field.name, renames.encodedName field.name, field.isOptional⟩ : KeyPair).on source)) =
        true ↔
      field.isOptional = false ∧ renames.nameOn source field.name ∉ keys members := by
  rw [KeyPair.on_ofField, ← contains_iff]
  simp

/-- The key map of a struct looks for the first required field that is missing. -/
theorem missing?_ofStruct_eq_some_iff {pair : KeyPair} :
    KeyMap.missing? source members (KeyMap.ofStruct renames fields isOpen).pairs = some pair ↔
      ∃ field, IsFirst (fun field => field.isOptional = false ∧
        renames.nameOn source field.name ∉ keys members) fields field ∧
        ⟨field.name, renames.encodedName field.name, field.isOptional⟩ = pair := by
  rw [KeyMap.missing?, KeyMap.ofStruct, List.find?_map, Option.map_eq_some_iff]
  exact exists_congr fun field =>
    and_congr_left' (find?_eq_some_iff_isFirst isMissing_ofField_iff)

/-- The key map of a struct finds no field missing when all required ones are there. -/
theorem missing?_ofStruct_eq_none_iff :
    KeyMap.missing? source members (KeyMap.ofStruct renames fields isOpen).pairs = none ↔
      ∀ field ∈ fields, field.isOptional = false →
        renames.nameOn source field.name ∈ keys members := by
  rw [KeyMap.missing?, KeyMap.ofStruct, List.find?_map, Option.map_eq_none_iff,
    List.find?_eq_none]
  refine forall₂_congr fun field _ => ?_
  rw [Function.comp_apply, isMissing_ofField_iff, not_and, not_not]

/-- The key map of a struct looks for the first undeclared key that is declared on the other
side. -/
theorem collision?_ofStruct_eq_some_iff {key : String} :
    (KeyMap.ofStruct renames fields isOpen).collision? source members = some key ↔
      IsFirst (fun key => (key ∉ fields.map fun field => renames.nameOn source field.name) ∧
        key ∈ fields.map fun field => renames.nameOn source.opposite field.name)
        (keys members) key := by
  refine find?_eq_some_iff_isFirst fun other => ?_
  rw [Bool.and_eq_true, Bool.not_eq_true', ← Bool.not_eq_true, KeyMap.declares_ofStruct_iff,
    KeyMap.declares_ofStruct_iff]

/-- **The key map of a struct fails** for nothing else, and for the first thing that is wrong. -/
theorem carry_ofStruct_eq_error_iff {value : Value} {error : TranscodingError} :
    (KeyMap.ofStruct renames fields index.isSome).carry source value = .error error ↔
      KeyMapFailure source renames fields index value error := by
  constructor
  · intro fails
    cases value with
    | object members =>
        rcases KeyMap.carry_object_eq_error_iff.mp fails with
          ⟨pair, missing, rfl⟩ | ⟨complete, isOpen, key, collision, rfl⟩
        · obtain ⟨field, first, rfl⟩ := missing?_ofStruct_eq_some_iff.mp missing
          rw [KeyPair.on_ofField]
          exact .missingKey first
        · exact .keyCollision isOpen (missing?_ofStruct_eq_none_iff.mp complete)
            (collision?_ofStruct_eq_some_iff.mp collision)
    | _ =>
        cases fails
        exact .wrongKind rfl
  · intro failure
    cases failure with
    | wrongKind other =>
        cases value with
        | object members => cases other
        | _ => rfl
    | @missingKey members field first =>
        refine KeyMap.carry_object_eq_error_iff.mpr (Or.inl
          ⟨_, missing?_ofStruct_eq_some_iff.mpr ⟨field, first, rfl⟩, ?_⟩)
        rw [KeyPair.on_ofField]
    | keyCollision isOpen complete first =>
        exact KeyMap.carry_object_eq_error_iff.mpr (Or.inr
          ⟨missing?_ofStruct_eq_none_iff.mpr complete, isOpen, _,
            collision?_ofStruct_eq_some_iff.mpr first, rfl⟩)

end Failures

/-- Where the encoded names differ, the key map of a struct tells its fields apart. -/
theorem tellsApart_ofStruct
    (encodedNames : (fields.map fun field => renames.encodedName field.name).Nodup)
    (isOpen : Bool) : (KeyMap.ofStruct renames fields isOpen).TellsApart := by
  intro side
  rw [KeyMap.map_on_ofStruct]
  cases side with
  | encoded => exact encodedNames
  | decoded => exact Renames.nodup_names_of_encodedNames encodedNames

/-- What the key map of a struct carries over in a direction is carried back in the other one, and
the value of each field stands under the key that stands for its name. -/
theorem exists_back_of_run_keys
    (encodedNames : (fields.map fun field => renames.encodedName field.name).Nodup)
    {direction : Direction} {value output : Value}
    (unique : ∀ members, value = .object members → (keys members).Nodup)
    (carries : (Conversion.keys (KeyMap.ofStruct renames fields index.isSome)).run direction value =
      .ok output) :
    ∃ members outputs back, value = .object members ∧ output = .object outputs ∧
      (Conversion.keys (KeyMap.ofStruct renames fields index.isSome)).run direction.opposite
        output = .ok (.object back) ∧
      back.Perm (members.filter fun member => index.isSome ||
        (fields.map fun field => renames.nameOn direction.inputSide field.name).contains
          member.1) ∧
      ∀ field ∈ fields, ∃ key,
        (Conversion.keys (KeyMap.ofStruct renames fields index.isSome)).keyOn?
          (renames.nameOn direction.inputSide field.name) direction.inputSide.opposite = some key ∧
        find? outputs key = find? members (renames.nameOn direction.inputSide field.name) := by
  have apart := tellsApart_ofStruct encodedNames index.isSome
  rw [Conversion.run_keys] at carries ⊢
  obtain ⟨members, outputs, rfl, translated, rfl⟩ := (KeyMap.carry_eq_ok_iff _ _ _ _).mp carries
  have outputKeys := KeyMap.nodup_keys_translated apart (unique members rfl) translated
  obtain ⟨back, returned, same⟩ :=
    KeyMap.exists_translated_back apart (unique members rfl) translated
  have backKeys := KeyMap.nodup_keys_translated apart outputKeys returned
  rw [KeyMap.map_on_ofStruct] at same
  refine ⟨members, ofList outputs, back, rfl, rfl, ?_, same, fun field held => ?_⟩
  · -- no key is repeated, so inserting the outputs leaves them as they are
    rw [Direction.inputSide_opposite, ofList_of_nodup outputKeys]
    refine (KeyMap.carry_eq_ok_iff _ _ _ _).mpr ⟨outputs, back, rfl, returned, ?_⟩
    rw [ofList_of_nodup backKeys]
  · have pairHeld : ⟨field.name, renames.encodedName field.name, field.isOptional⟩ ∈
        (KeyMap.ofStruct renames fields index.isSome).pairs := List.mem_map_of_mem held
    have moved := KeyMap.find?_translated apart translated pairHeld
    rw [KeyPair.on_ofField, KeyPair.on_ofField] at moved
    refine ⟨_, (KeyMap.keyOn?_eq_some_iff apart).mpr
      ⟨_, pairHeld, ?_, KeyPair.on_ofField _ _ _⟩, ?_⟩
    · rw [KeyPair.on_ofField, Side.opposite_opposite]
    · rw [ofList_of_nodup outputKeys, moved]

/-- **The key map of a struct is a bijection** between the names of its fields on the two sides. It
fails for a value that is no object, or else for the first required field that is missing, or else
for the first undeclared key that is in the way of a field; what it carries over comes back, in some
order and for a closed struct without the undeclared members; the value of each field stands under
the key that stands for its name; and the keys of the two sides stand for each other. -/
theorem ofStruct_isPartialBijection (index : Option (IndexSignature Schema))
    (encodedNames : (fields.map fun field => renames.encodedName field.name).Nodup) :
    let conversion := Conversion.keys (KeyMap.ofStruct renames fields index.isSome)
    let names := fun side => fields.map fun field => renames.nameOn side field.name
    (∀ direction value error, conversion.run direction value = .error error ↔
      KeyMapFailure direction.inputSide renames fields index value error) ∧
    (∀ direction value output,
      (∀ members, value = .object members → (keys members).Nodup) →
      conversion.run direction value = .ok output →
      ∃ members outputs back, value = .object members ∧ output = .object outputs ∧
        conversion.run direction.opposite output = .ok (.object back) ∧
        back.Perm (members.filter fun member =>
          index.isSome || (names direction.inputSide).contains member.1) ∧
        ∀ field ∈ fields, ∃ key,
          conversion.keyOn? (renames.nameOn direction.inputSide field.name)
            direction.inputSide.opposite = some key ∧
          find? outputs key = find? members (renames.nameOn direction.inputSide field.name)) ∧
    (∀ key side, (conversion.keyOn? key side).isSome ↔ key ∈ names side.opposite) ∧
    ∀ key other side,
      conversion.keyOn? key side = some other ↔
        conversion.keyOn? other side.opposite = some key := by
  intro conversion names
  -- distinct encoded names make the map tell keys apart on either side
  have apart := tellsApart_ofStruct encodedNames index.isSome
  refine ⟨fun direction value error => ?_, fun direction value output unique carries => ?_,
    fun key side => ?_, fun key other side => KeyMap.keyOn?_comm apart⟩
  · rw [Conversion.run_keys, carry_ofStruct_eq_error_iff]
  · exact exists_back_of_run_keys encodedNames unique carries
  · refine (KeyMap.isSome_keyOn?_iff _ key side).trans ?_
    rw [KeyMap.map_on_ofStruct]

/-- Two fields that swap their names come back, and so does the note besides them. -/
theorem ofStruct_isPartialBijection_swapped :
    let fields : List (Field Schema) :=
      [⟨"from", unknown, false, false, some "to", []⟩,
        ⟨"to", unknown, false, false, some "from", []⟩, ⟨"via", unknown, true, false, none, []⟩]
    let conversion := Conversion.keys (KeyMap.ofStruct (Renames.ofFields fields) fields true)
    let members : List (String × Value) :=
      [("note", .null), ("to", .string "Oslo"), ("from", .string "Rome")]
    let outputs : List (String × Value) :=
      [("to", .string "Rome"), ("from", .string "Oslo"), ("note", .null)]
    (namesOn .encoded fields).Nodup ∧ (keys members).Nodup ∧
      conversion.run .encode (.object members) = .ok (.object outputs) ∧
      ∃ back, conversion.run .decode (.object outputs) = .ok (.object back) ∧
        back.Perm members := by
  intro fields conversion members outputs
  have encodedNames : (namesOn .encoded fields).Nodup := by decide
  have unique : (keys members).Nodup := by decide
  have carries : conversion.run .encode (.object members) = .ok (.object outputs) := rfl
  refine ⟨encodedNames, unique, carries, ?_⟩
  obtain ⟨_, _, back, ⟨⟩, ⟨⟩, returns, same, _⟩ :=
    (ofStruct_isPartialBijection (some ⟨.string, unknown, false⟩) encodedNames).2.1 .encode
      (.object members) (.object outputs) (by rintro _ ⟨⟩; exact unique) carries
  refine ⟨back, returns, ?_⟩
  simpa using same

end Schema

end WireSchema

import WireSchema.Proofs.Renaming.Codec
import WireSchema.Proofs.Renaming.Reshaping
import WireSchema.Proofs.TwoRuns.Walks

/-! # Renamed schemas side by side

A schema with its renames applied goes alike on two values when their parts go alike: objects by
their members under the names on the input side (`goesAlike_struct`), arrays by their items
(`goesAlike_tuple`). A renamed struct walks an object and carries it over, in an order that depends
on the direction; as each of the two steps goes alike, so do both. -/

namespace WireSchema.Schema

open Members

/-- **A congruence** of values: it relates objects whose members are related in order, and arrays
whose items are. -/
structure IsCongruence (same : Value → Value → Prop) : Prop where
  /-- Objects of related members. -/
  object : ∀ {lefts rights : List (String × Value)}, (keys lefts).Nodup →
    Corresponds (fun _ => same) lefts rights → same (.object lefts) (.object rights)
  /-- Arrays of related items. -/
  array : ∀ {lefts rights : List Value}, List.Forall₂ same lefts rights →
    same (.array lefts) (.array rights)

/-- Equality is a congruence. -/
theorem isCongruence_eq : IsCongruence Eq where
  object _ corresponds := congrArg Value.object corresponds.eq
  array each := congrArg Value.array (List.forall₂_eq_eq_eq ▸ each)

variable {direction : Direction} {same : Value → Value → Prop}

/-- A congruence relates objects whose members correspond. -/
theorem IsCongruence.of_objectsCorrespond (congruence : IsCongruence same) {left right : Value}
    (corresponds : ObjectsCorrespond (fun _ => same) left right) : same left right := by
  cases corresponds with
  | objects unique corresponds => exact congruence.object unique corresponds

/-- A leaf passes on what it is given. -/
theorem goesAlike_leaf {kind : LeafType} {left right : Value} (related : same left right) :
    (leaf kind).GoesAlike direction same left right := by
  intro path inputName
  rw [transcodeAt, transcodeAt]
  exact .ok related

/-- A codec between leaves does what its conversion does. -/
theorem goesAlike_codec_leaf {source target : LeafType} {conversion : Conversion}
    {left right : Value}
    (converts : MatchBy same (conversion.run direction left) (conversion.run direction right)) :
    (codec (.leaf source) (.leaf target) conversion).GoesAlike direction same left right := by
  intro path inputName
  rw [transcodeAt_codec_leaf, transcodeAt_codec_leaf]
  exact converts.mapError _

/-! ## (1) Structs -/

section Structs

variable {fields : List (Field Schema)} {index : Option (IndexSignature Schema)}
  {lefts rights : List (String × Value)}

variable (direction same fields index lefts rights) in
/-- What two objects hold under the names of the fields on a side goes alike through their types,
and where the struct is open, the other members go alike through the index type. -/
structure MembersGoAlike (name : String → String) : Prop where
  /-- The declared members. -/
  declared : ∀ field ∈ fields, Option.Rel (field.type.renamed.GoesAlike direction same)
    (find? lefts (name field.name)) (find? rights (name field.name))
  /-- The other members. -/
  others : ∀ signature ∈ index, Corresponds (fun key left right =>
    (key ∉ fields.map fun field => name field.name) →
      signature.value.renamed.GoesAlike direction same left right) lefts rights

/-- On the decoded side, the type under the name of a field is that of the field. -/
theorem memberType_decoded (names : (fields.map Field.name).Nodup) {field : Field Schema}
    (held : field ∈ fields) : memberType .decoded fields index field.name = field.type := by
  have distinct : (namesOn .decoded fields).Nodup := names
  exact memberType_of_mem distinct held

/-- Members that correspond by the types under their names go alike. -/
theorem membersGoAlike_of_corresponds (names : (fields.map Field.name).Nodup)
    (corresponds : Corresponds (fun key =>
      (memberType .decoded fields index key).renamed.GoesAlike direction same) lefts rights) :
    MembersGoAlike direction same fields index lefts rights id where
  declared field held := by
    have found := corresponds.find? field.name
    rw [memberType_decoded names held] at found
    exact found
  others signature isOpen := by
    cases isOpen
    refine corresponds.imp fun key _ left right alike undeclared => ?_
    have type : memberType .decoded fields (some signature) key = signature.value :=
      memberType_of_notMem undeclared signature
    rw [← type]
    exact alike

/-- A struct with the types of renamed fields walks two objects alike, whatever else is said of its
fields. -/
theorem matchBy_retypedStruct (retyped : Field Schema → Field Schema)
    (keepsName : ∀ field, (retyped field).name = field.name)
    (hasType : ∀ field, (retyped field).type = field.type.renamed)
    (alike : MembersGoAlike direction same fields index lefts rights id) (path : String)
    (inputName : String → String) :
    MatchBy (ObjectsCorrespond fun _ => same)
      (transcodeAt direction path inputName
        (.struct (fields.map retyped) (index.map renamedIndex)) (.object lefts))
      (transcodeAt direction path inputName
        (.struct (fields.map retyped) (index.map renamedIndex)) (.object rights)) := by
  refine matchBy_struct path inputName ?_ ?_
  · rw [List.forall_mem_map]
    intro field held
    rw [keepsName, hasType]
    exact alike.declared field held
  · intro _ kept
    obtain ⟨signature, isOpen, rfl⟩ := Option.map_eq_some_iff.mp kept
    have sameNames : (fields.map retyped).map Field.name = fields.map Field.name := by
      rw [List.map_map]
      exact List.map_congr_left fun field _ => keepsName field
    rw [sameNames]
    exact alike.others signature isOpen

/-- The target walks two objects alike. -/
theorem matchBy_decodedStruct (alike : MembersGoAlike direction same fields index lefts rights id)
    (path : String) (inputName : String → String) :
    MatchBy (ObjectsCorrespond fun _ => same)
      (transcodeAt direction path inputName
        (decodedStruct (fields.map renamedField) (index.map renamedIndex)) (.object lefts))
      (transcodeAt direction path inputName
        (decodedStruct (fields.map renamedField) (index.map renamedIndex)) (.object rights)) := by
  rw [decodedStruct, List.map_map]
  exact matchBy_retypedStruct (decodedField ∘ renamedField) (fun _ => rfl) (fun _ => rfl) alike path
    inputName

/-- A renamed struct encodes two objects alike: its target walks them, and its key map carries what
corresponds over. -/
theorem matchBy_renameCodec_encode {renames : Renames}
    (distinct : (fields.map fun field => renames.encodedName field.name).Nodup)
    (alike : MembersGoAlike .encode same fields index lefts rights id) (path : String)
    (inputName : String → String) :
    MatchBy (ObjectsCorrespond fun _ => same)
      (transcodeAt .encode path inputName
        (renameCodec renames (fields.map renamedField) (index.map renamedIndex)) (.object lefts))
      (transcodeAt .encode path inputName
        (renameCodec renames (fields.map renamedField) (index.map renamedIndex))
        (.object rights)) := by
  have retypedNames :
      ((fields.map renamedField).map fun field => renames.encodedName field.name).Nodup := by
    rw [List.map_map]
    exact distinct
  rw [encode_renameCodec retypedNames, encode_renameCodec retypedNames]
  refine (matchBy_decodedStruct alike path id).bind fun left right walked => ?_
  cases walked with
  | objects _ corresponds =>
      -- what has been walked bears the same keys on both sides, declared ones and others
      refine (matchBy_carry (fun pair _ => corresponds.find? (pair.on .decoded)) ?_).mapError _
      exact fun _ => (corresponds.filter fun key => !KeyMap.declares _ key .decoded).imp
        fun _ _ _ _ related _ => related

/-- A renamed struct decodes two objects alike: its key map carries them over to members that
correspond by their types, and its target walks these. -/
theorem matchBy_renameCodec_decode {renames : Renames} (names : (fields.map Field.name).Nodup)
    (distinct : (fields.map fun field => renames.encodedName field.name).Nodup)
    (uniqueLeft : (keys lefts).Nodup) (uniqueRight : (keys rights).Nodup)
    (alike : MembersGoAlike .decode same fields index lefts rights renames.encodedName)
    (path : String) (inputName : String → String) :
    MatchBy (ObjectsCorrespond fun _ => same)
      (transcodeAt .decode path inputName
        (renameCodec renames (fields.map renamedField) (index.map renamedIndex)) (.object lefts))
      (transcodeAt .decode path inputName
        (renameCodec renames (fields.map renamedField) (index.map renamedIndex))
        (.object rights)) := by
  have retypedNames :
      ((fields.map renamedField).map fun field => renames.encodedName field.name).Nodup := by
    rw [List.map_map]
    exact distinct
  rw [decode_renameCodec retypedNames (by rintro _ ⟨⟩; exact uniqueLeft),
    decode_renameCodec retypedNames (by rintro _ ⟨⟩; exact uniqueRight),
    KeyMap.ofStruct_renamedField, Option.isSome_map]
  have carries : MatchBy (ObjectsCorrespond fun key =>
        (memberType .decoded fields index key).renamed.GoesAlike .decode same)
      ((KeyMap.ofStruct renames fields index.isSome).carry .encoded (.object lefts))
      ((KeyMap.ofStruct renames fields index.isSome).carry .encoded (.object rights)) := by
    refine matchBy_carry ?_ fun isOpen => ?_
    · rw [KeyMap.ofStruct, List.forall_mem_map]
      intro field held
      show Option.Rel ((memberType .decoded fields index field.name).renamed.GoesAlike .decode same)
        _ _
      rw [memberType_decoded names held]
      exact alike.declared field held
    · obtain ⟨signature, rfl⟩ := Option.isSome_iff_exists.mp isOpen
      have others := (alike.others signature rfl).filter fun key =>
        !(KeyMap.ofStruct renames fields true).declares key .encoded
      refine others.imp fun key held left right related apart => ?_
      -- a kept key is declared on neither side, so that its type is the index type on both
      have undeclared : key ∉ fields.map fun field => renames.encodedName field.name := by
        obtain ⟨member, memberHeld, rfl⟩ := List.mem_map.mp held
        have unread := (List.mem_filter.mp memberHeld).2
        rw [Bool.not_eq_true', ← Bool.not_eq_true, KeyMap.declares_ofStruct_iff] at unread
        exact unread
      have unwritten : key ∉ namesOn .decoded fields := by
        rw [← Bool.not_eq_true] at apart
        exact fun written => apart ((KeyMap.declares_ofStruct_iff _ _ _ _ _).mpr written)
      rw [memberType_of_notMem unwritten]
      exact related undeclared
  -- behind the key map the names are those of the fields, and each member goes by its own type
  refine (carries.mapError _).bind fun left right carried => ?_
  cases carried with
  | objects _ corresponds =>
      exact matchBy_decodedStruct (membersGoAlike_of_corresponds names corresponds) path _

/-- **A struct with its renames applied** goes alike on two objects when their members do, under the
names on the input side. -/
theorem goesAlike_struct {applied : Schema} (congruence : IsCongruence same)
    (names : (fields.map Field.name).Nodup)
    (applies : (Schema.struct fields index).applyRenames = .ok applied)
    (uniqueLeft : (keys lefts).Nodup) (uniqueRight : (keys rights).Nodup)
    (alike : MembersGoAlike direction same fields index lefts rights
      ((Renames.ofFields fields).nameOn direction.inputSide)) :
    (Schema.struct fields index).renamed.GoesAlike direction same (.object lefts)
      (.object rights) := by
  intro path inputName
  rw [renamed_of_applyRenames applies]
  obtain ⟨_, _, encodedNames, rfl⟩ := applyRenames_struct_eq_ok applies
  refine MatchBy.imp (fun _ _ => congruence.of_objectsCorrespond) ?_
  rw [renamedStruct]
  cases plain : (Renames.ofFields fields).isEmpty with
  | true =>
      rw [Renames.nameOn_of_isEmpty plain] at alike
      exact matchBy_retypedStruct renamedField (fun _ => rfl) (fun _ => rfl) alike path inputName
  | false =>
      cases direction with
      | encode => exact matchBy_renameCodec_encode (encodedNames plain) alike path inputName
      | decode =>
          exact matchBy_renameCodec_decode names (encodedNames plain) uniqueLeft uniqueRight alike
            path inputName

/-- A struct goes alike on two values of one kind that are no objects. -/
theorem goesAlike_struct_of_not_object {applied : Schema} {left right : Value}
    (applies : (Schema.struct fields index).applyRenames = .ok applied)
    (leftOther : left.members? = none) (rightOther : right.members? = none)
    (sameKind : left.kind = right.kind) :
    (Schema.struct fields index).renamed.GoesAlike direction same left right := by
  intro path inputName
  rw [transcodeAt_renamed_struct_of_not_object applies leftOther,
    transcodeAt_renamed_struct_of_not_object applies rightOther, sameKind]
  exact .error _

end Structs

/-! ## (2) Tuples -/

section Tuples

variable {elements : List (Element Schema)} {rest : Option Schema} {isReadonly : Bool}
  {applied : Schema}

/-- **A tuple with its renames applied** goes alike on two arrays when its slots go alike on their
items. -/
theorem goesAlike_tuple (congruence : IsCongruence same)
    (applies : (Schema.tuple elements rest isReadonly).applyRenames = .ok applied)
    {lefts rights : List Value}
    (alike : Items.Corresponds
      (fun position => (slotType elements rest position).renamed.GoesAlike direction same) lefts
      rights) :
    (Schema.tuple elements rest isReadonly).renamed.GoesAlike direction same (.array lefts)
      (.array rights) := by
  intro path inputName
  rw [renamed_of_applyRenames applies]
  obtain ⟨_, _, rfl⟩ := applyRenames_tuple_eq_ok applies
  rw [transcodeAt_tuple, transcodeAt_tuple, alike.length_eq]
  simp only [← slotType_renamed] at alike
  split
  · exact (matchBy_itemOutputs path 0 alike).map fun _ _ => congruence.array
  · exact .error _

/-- A tuple goes alike on two values of one kind that are no arrays. -/
theorem goesAlike_tuple_of_not_array {left right : Value}
    (applies : (Schema.tuple elements rest isReadonly).applyRenames = .ok applied)
    (leftOther : left.items? = none) (rightOther : right.items? = none)
    (sameKind : left.kind = right.kind) :
    (Schema.tuple elements rest isReadonly).renamed.GoesAlike direction same left right := by
  intro path inputName
  rw [renamed_of_applyRenames applies]
  obtain ⟨_, _, rfl⟩ := applyRenames_tuple_eq_ok applies
  rw [transcodeAt_tuple_of_not_array _ _ _ _ _ _ leftOther,
    transcodeAt_tuple_of_not_array _ _ _ _ _ _ rightOther, sameKind]
  exact .error _

end Tuples

end WireSchema.Schema

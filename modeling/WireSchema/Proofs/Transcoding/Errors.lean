import WireSchema.Proofs.Runs
import WireSchema.Proofs.Schema.Parts
import WireSchema.Proofs.Transcoding.Outputs

/-! # Where errors come from

An error of a struct is a missing key or an error of a member, an error of a tuple is its length or
an error of an item, and an error of a codec is one of its sides or of its conversion. Structs and
tuples by themselves raise no key collisions. -/

namespace WireSchema.Schema

open Members

variable {direction : Direction} {path : String} {inputName : String → String}
  {error : TranscodingError}

/-! ## (1) Structs -/

/-- An error among the declared members: a required one is missing, or one does not go through. -/
theorem fieldOutputs_eq_error {members : List (String × Value)} {fields : List (Field Schema)}
    (fails : fieldOutputs direction path inputName members fields = .error error) :
    ∃ field ∈ fields,
      (find? members field.name = none ∧ field.isOptional = false ∧
        error = ⟨path, .missingKey (inputName field.name) direction.inputSide⟩) ∨
      ∃ value, find? members field.name = some value ∧
        transcodeAt direction (Pointer.child path (inputName field.name)) id field.type value =
          .error error := by
  induction fields with
  | nil => cases fails
  | cons field rest induction =>
      rw [fieldOutputs] at fails
      cases found : find? members field.name with
      | some value =>
          rw [found] at fails
          -- the value of the field fails, or something behind it
          rcases bind_eq_error_iff.mp fails with here | ⟨output, _, later⟩
          · exact ⟨field, List.mem_cons_self, Or.inr ⟨value, found, here⟩⟩
          · rcases bind_eq_error_iff.mp later with behind | ⟨_, _, never⟩
            · obtain ⟨other, held, cause⟩ := induction behind
              exact ⟨other, List.mem_cons_of_mem _ held, cause⟩
            · cases never
      | none =>
          simp only [found] at fails
          cases optional : field.isOptional with
          | true =>
              rw [optional, if_pos rfl] at fails
              obtain ⟨other, held, cause⟩ := induction fails
              exact ⟨other, List.mem_cons_of_mem _ held, cause⟩
          | false =>
              rw [optional, if_neg Bool.false_ne_true] at fails
              cases fails
              exact ⟨field, List.mem_cons_self, Or.inl ⟨found, optional, rfl⟩⟩

/-- An error among the undeclared members: one of them does not go through. -/
theorem undeclaredOutputs_eq_error {declared : List String} {type : Schema}
    {members : List (String × Value)}
    (fails : undeclaredOutputs direction path declared type members = .error error) :
    ∃ member ∈ members, member.1 ∉ declared ∧
      transcodeAt direction (Pointer.child path member.1) id type member.2 = .error error := by
  induction members with
  | nil => cases fails
  | cons member rest induction =>
      obtain ⟨key, value⟩ := member
      rw [undeclaredOutputs] at fails
      by_cases known : key ∈ declared
      · rw [if_pos (List.contains_iff_mem.mpr known)] at fails
        obtain ⟨other, held, cause⟩ := induction fails
        exact ⟨other, List.mem_cons_of_mem _ held, cause⟩
      · rw [if_neg (mt List.contains_iff_mem.mp known)] at fails
        rcases bind_eq_error_iff.mp fails with here | ⟨output, _, later⟩
        · exact ⟨(key, value), List.mem_cons_self, known, here⟩
        · rcases bind_eq_error_iff.mp later with behind | ⟨_, _, never⟩
          · obtain ⟨other, held, cause⟩ := induction behind
            exact ⟨other, List.mem_cons_of_mem _ held, cause⟩
          · cases never

/-- **An error of a struct**: it is met by no object, a required field is missing, or a member does
not go through. -/
theorem transcodeAt_struct_eq_error {fields : List (Field Schema)}
    {index : Option (IndexSignature Schema)} {value : Value}
    (fails : transcodeAt direction path inputName (.struct fields index) value = .error error) :
    (value.members? = none ∧ error = ⟨path, .wrongKind "object" value.kind⟩) ∨
    ∃ members, value = .object members ∧
      ((∃ field ∈ fields,
        (find? members field.name = none ∧ field.isOptional = false ∧
          error = ⟨path, .missingKey (inputName field.name) direction.inputSide⟩) ∨
        ∃ inner, find? members field.name = some inner ∧
          transcodeAt direction (Pointer.child path (inputName field.name)) id field.type inner =
            .error error) ∨
      ∃ signature ∈ index, ∃ member ∈ members, member.1 ∉ fields.map Field.name ∧
        transcodeAt direction (Pointer.child path member.1) id signature.value member.2 =
          .error error) := by
  cases value with
  | object members =>
      refine Or.inr ⟨members, rfl, ?_⟩
      rw [transcodeAt_struct] at fails
      rcases bind_eq_error_iff.mp fails with declared | ⟨outputs, _, later⟩
      · exact Or.inl (fieldOutputs_eq_error declared)
      · rcases bind_eq_error_iff.mp later with others | ⟨_, _, never⟩
        · cases index with
          | none => cases others
          | some signature => exact Or.inr ⟨signature, rfl, undeclaredOutputs_eq_error others⟩
        · cases never
  | _ =>
      rw [transcodeAt_struct_of_not_object _ _ _ _ _ rfl] at fails
      cases fails
      exact Or.inl ⟨rfl, rfl⟩

/-! ## (2) Tuples -/

/-- An error among items: one of them does not go through. -/
theorem itemOutputs_eq_error {slot : Nat → Schema} {position : Nat} {items : List Value}
    (fails : itemOutputs direction path slot position items = .error error) :
    ∃ index item, items[index]? = some item ∧
      transcodeAt direction (Pointer.child path (Pointer.position (position + index))) id
        (slot index) item = .error error := by
  induction items generalizing slot position with
  | nil => cases fails
  | cons item items induction =>
      rw [itemOutputs] at fails
      rcases bind_eq_error_iff.mp fails with here | ⟨output, _, later⟩
      · exact ⟨0, item, rfl, here⟩
      · rcases bind_eq_error_iff.mp later with behind | ⟨_, _, never⟩
        · obtain ⟨index, other, found, cause⟩ := induction behind
          refine ⟨index + 1, other, found, ?_⟩
          rw [← cause, Nat.add_comm index 1, Nat.add_assoc]
        · cases never

/-- **An error of a tuple**: it is met by no array or by one of the wrong length, or an item does
not go through. -/
theorem transcodeAt_tuple_eq_error {elements : List (Element Schema)} {rest : Option Schema}
    {isReadonly : Bool} {value : Value}
    (fails : transcodeAt direction path inputName (.tuple elements rest isReadonly) value =
      .error error) :
    (value.items? = none ∧ error = ⟨path, .wrongKind "array" value.kind⟩) ∨
    ∃ items, value = .array items ∧
      ((admitsArity elements rest.isSome items.length = false ∧
        error = ⟨path, .wrongArity
          (arityText (requiredCount elements) elements.length rest.isSome) items.length⟩) ∨
      ∃ index item, items[index]? = some item ∧
        transcodeAt direction (Pointer.child path (Pointer.position index)) id
          (slotType elements rest index) item = .error error) := by
  cases value with
  | array items =>
      refine Or.inr ⟨items, rfl, ?_⟩
      rw [transcodeAt_tuple] at fails
      -- the number of items is looked at before any of them
      cases admitted : admitsArity elements rest.isSome items.length with
      | true =>
          rw [admitted, if_pos rfl, map_eq_error_iff] at fails
          obtain ⟨index, item, found, cause⟩ := itemOutputs_eq_error fails
          rw [Nat.zero_add] at cause
          exact Or.inr ⟨index, item, found, cause⟩
      | false =>
          rw [admitted, if_neg Bool.false_ne_true] at fails
          cases fails
          exact Or.inl ⟨rfl, rfl⟩
  | _ =>
      rw [transcodeAt_tuple_of_not_array _ _ _ _ _ _ rfl] at fails
      cases fails
      exact Or.inl ⟨rfl, rfl⟩

/-! ## (3) Codecs -/

/-- **An error of a codec**: the near side fails, or else the conversion, or else the far side. -/
theorem transcodeAt_codec_eq_error {source target : Schema} {conversion : Conversion}
    {value : Value}
    (fails : transcodeAt direction path inputName (.codec source target conversion) value =
      .error error) :
    transcodeAt direction path id (nearSide source target direction) value = .error error ∨
    ∃ near, transcodeAt direction path id (nearSide source target direction) value = .ok near ∧
      ((∃ inner, conversion.run direction near = .error inner ∧ inner.anchored path = error) ∨
      ∃ carried, conversion.run direction near = .ok carried ∧
        transcodeAt direction path (Schema.inputName conversion direction.inputSide)
          (farSide source target direction) carried = .error error) := by
  rw [transcodeAt_codec] at fails
  rcases bind_eq_error_iff.mp fails with here | ⟨near, walks, later⟩
  · exact Or.inl here
  · refine Or.inr ⟨near, walks, ?_⟩
    rcases bind_eq_error_iff.mp later with converts | ⟨carried, converts, behind⟩
    · exact Or.inl (mapError_eq_error_iff.mp converts)
    · exact Or.inr ⟨carried, mapError_eq_ok_iff.mp converts, behind⟩

/-! ## (4) Key collisions -/

/-- The conversion of some codec reports a key collision in the given direction. -/
def HasCollidingConversion (direction : Direction) (schema : Schema) : Prop :=
  ∃ source target conversion, .codec source target conversion ∈ schema.parts true ∧
    ∃ value path key, conversion.run direction value = .error ⟨path, .keyCollision key⟩

/-- A conversion that can collide in a part can do so in the schema. -/
theorem HasCollidingConversion.mono {schema inner : Schema}
    (inside : ∀ part, part ∈ inner.parts true → part ∈ schema.parts true)
    (collides : inner.HasCollidingConversion direction) :
    schema.HasCollidingConversion direction := by
  obtain ⟨source, target, conversion, held, raises⟩ := collides
  exact ⟨source, target, conversion, inside _ held, raises⟩

/-- **Key collisions are raised by conversions** only. -/
theorem hasCollidingConversion_of_transcodeAt {schema : Schema} {value : Value} {place key : String}
    (fails : transcodeAt direction path inputName schema value =
      .error ⟨place, .keyCollision key⟩) : schema.HasCollidingConversion direction := by
  induction schema using Schema.induction generalizing path inputName value with
  | leaf kind =>
      rw [transcodeAt] at fails
      cases fails
  | struct fields index fieldsInduction indexInduction =>
      -- a missing key and a wrong kind are no collisions, so that the error is one of a member
      rcases transcodeAt_struct_eq_error fails with
        ⟨_, same⟩ | ⟨members, rfl, ⟨field, held, ⟨_, _, same⟩ | ⟨inner, _, below⟩⟩ |
          ⟨signature, held, member, _, _, below⟩⟩
      · cases same
      · cases same
      · exact (fieldsInduction field held below).mono fun _ => mem_parts_of_field held
      · exact (indexInduction signature held below).mono fun _ => mem_parts_of_index held
  | tuple elements rest isReadonly elementsInduction restInduction =>
      rcases transcodeAt_tuple_eq_error fails with
        ⟨_, same⟩ | ⟨items, rfl, ⟨_, same⟩ | ⟨position, item, _, below⟩⟩
      · cases same
      · cases same
      · revert below
        refine slotType_induction (motive := fun type => ∀ {path},
          transcodeAt direction path id type item = .error ⟨place, .keyCollision key⟩ → _)
          ?_ ?_ ?_ position
        · intro element held _ below
          exact (elementsInduction element held below).mono fun _ => mem_parts_of_element held
        · intro type held _ below
          exact (restInduction type held below).mono fun _ => mem_parts_of_rest held
        · intro _ below
          rw [unknown, transcodeAt] at below
          cases below
  | codec source target conversion sourceInduction targetInduction =>
      have ofSource : ∀ {path inputName value},
          transcodeAt direction path inputName source value = .error ⟨place, .keyCollision key⟩ →
            (Schema.codec source target conversion).HasCollidingConversion direction := by
        intro path inputName value below
        exact (sourceInduction below).mono fun _ => mem_parts_of_source
      have ofTarget : ∀ {path inputName value},
          transcodeAt direction path inputName target value = .error ⟨place, .keyCollision key⟩ →
            (Schema.codec source target conversion).HasCollidingConversion direction := by
        intro path inputName value below
        exact (targetInduction below).mono fun _ => mem_parts_of_target
      rcases transcodeAt_codec_eq_error fails with
        below | ⟨near, _, ⟨inner, converts, same⟩ | ⟨_, _, below⟩⟩
      · cases direction
        · exact ofTarget below
        · exact ofSource below
      · obtain ⟨innerPath, cause⟩ := inner
        cases same
        exact ⟨source, target, conversion, mem_parts_self _, near, innerPath, key, converts⟩
      · cases direction
        · exact ofSource below
        · exact ofTarget below

end WireSchema.Schema

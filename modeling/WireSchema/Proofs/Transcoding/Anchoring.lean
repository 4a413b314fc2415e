import WireSchema.Proofs.Runs
import WireSchema.Proofs.Schema.Parts
import WireSchema.Proofs.Transcoding.Outputs

/-! # Walks at a path

Carrying a value at a path gives what carrying it at the root gives, and fails with the same error
anchored at the path (`transcodeAt_eq_anchored`). So every error points to the value itself or below
it (`exists_path_of_transcodeAt`). -/

namespace WireSchema

/-- Errors change alike before and behind the rest of a run. -/
theorem mapError_bind {ε δ α β : Type} (actual : Except ε α) (next : α → Except ε β)
    (change : ε → δ) :
    (actual >>= next).mapError change =
      actual.mapError change >>= fun value => (next value).mapError change := by
  cases actual <;> rfl

/-- Changing outcomes and changing errors do not depend on each other. -/
theorem mapError_map {ε δ α β : Type} (actual : Except ε α) (result : α → β) (change : ε → δ) :
    (actual.map result).mapError change = (actual.mapError change).map result := by
  cases actual <;> rfl

/-- Anchoring in two steps is anchoring at both paths. -/
theorem TranscodingError.anchored_anchored (front path : String) (error : TranscodingError) :
    (error.anchored path).anchored front = error.anchored (front ++ path) := by
  simp [anchored, String.append_assoc]

/-- A pointer is led on at its end, whatever stands in front. -/
theorem Pointer.child_append (front path segment : String) :
    child (front ++ path) segment = front ++ child path segment := by
  rw [child, child, String.append_assoc]

namespace Schema

open Members

variable {direction : Direction} {front : String}

/-- A walk of a type is the same at any path, where its errors are anchored. -/
def IsAnchored (direction : Direction) (front : String) (schema : Schema) : Prop :=
  ∀ path inputName value, transcodeAt direction (front ++ path) inputName schema value =
    (transcodeAt direction path inputName schema value).mapError (·.anchored front)

/-! ## (1) Each kind of schema -/

/-- The errors of fields under a longer path are anchored where it starts. -/
theorem fieldOutputs_append {fields : List (Field Schema)}
    (types : ∀ field ∈ fields, field.type.IsAnchored direction front) (path : String)
    (inputName : String → String) (members : List (String × Value)) :
    fieldOutputs direction (front ++ path) inputName members fields =
      (fieldOutputs direction path inputName members fields).mapError (·.anchored front) := by
  induction fields with
  | nil => rfl
  | cons field rest induction =>
      rw [List.forall_mem_cons] at types
      rw [fieldOutputs, fieldOutputs]
      cases find? members field.name with
      | some value =>
          simp only [Pointer.child_append, types.1 _ _ _, induction types.2, mapError_bind]
          rfl
      | none =>
          simp only [induction types.2]
          split
          · rfl
          · rfl

/-- The errors of undeclared members under a longer path are anchored where it starts. -/
theorem otherOutputs_append {index : Option (IndexSignature Schema)}
    (types : ∀ signature ∈ index, signature.value.IsAnchored direction front) (path : String)
    (declared : List String) (members : List (String × Value)) :
    otherOutputs direction (front ++ path) declared index members =
      (otherOutputs direction path declared index members).mapError (·.anchored front) := by
  cases index with
  | none => rfl
  | some signature =>
      rw [otherOutputs, otherOutputs]
      induction members with
      | nil => rfl
      | cons member rest induction =>
          obtain ⟨key, value⟩ := member
          rw [undeclaredOutputs, undeclaredOutputs]
          split
          · exact induction
          · simp only [Pointer.child_append, types signature rfl _ _ _, induction, mapError_bind]
            rfl

/-- The errors of items under a longer path are anchored where it starts. -/
theorem itemOutputs_append {slot : Nat → Schema}
    (types : ∀ position, (slot position).IsAnchored direction front) (path : String)
    (index : Nat) (items : List Value) :
    itemOutputs direction (front ++ path) slot index items =
      (itemOutputs direction path slot index items).mapError (·.anchored front) := by
  induction items generalizing slot index with
  | nil => rfl
  | cons item items induction =>
      have later := induction (fun position => types (position + 1)) (index + 1)
      simp only [itemOutputs, Pointer.child_append, types 0 _ _ _, later, mapError_bind]
      rfl

/-! ## (2) All schemas -/

/-- The errors of every schema under a longer path are anchored where it starts. -/
theorem isAnchored (direction : Direction) (front : String) (schema : Schema) :
    schema.IsAnchored direction front := by
  induction schema using Schema.induction with
  | leaf kind =>
      intro path inputName value
      simp only [transcodeAt]
      rfl
  | struct fields index fieldsInduction indexInduction =>
      intro path inputName value
      cases value with
      | object members =>
          rw [transcodeAt_struct, transcodeAt_struct, fieldOutputs_append fieldsInduction,
            otherOutputs_append indexInduction, mapError_bind]
          refine bind_congr fun declared => ?_
          rw [mapError_bind]
          rfl
      | _ =>
          rw [transcodeAt_struct_of_not_object _ _ _ _ _ rfl,
            transcodeAt_struct_of_not_object _ _ _ _ _ rfl]
          rfl
  | tuple elements rest isReadonly elementsInduction restInduction =>
      intro path inputName value
      cases value with
      | array items =>
          have slots : ∀ position, (slotType elements rest position).IsAnchored direction front :=
            slotType_induction elementsInduction restInduction fun _ _ _ => by
              simp only [unknown, transcodeAt]
              rfl
          rw [transcodeAt_tuple, transcodeAt_tuple]
          split
          · rw [itemOutputs_append slots, mapError_map]
          · rfl
      | _ =>
          rw [transcodeAt_tuple_of_not_array _ _ _ _ _ _ rfl,
            transcodeAt_tuple_of_not_array _ _ _ _ _ _ rfl]
          rfl
  | codec source target conversion sourceInduction targetInduction =>
      intro path inputName value
      have near : (nearSide source target direction).IsAnchored direction front :=
        nearSide_induction sourceInduction targetInduction direction
      have far : (farSide source target direction).IsAnchored direction front :=
        farSide_induction sourceInduction targetInduction direction
      rw [transcodeAt_codec, transcodeAt_codec, near, mapError_bind]
      refine bind_congr fun walked => ?_
      -- the conversion tells its errors from its own root, so that they are anchored twice
      rw [mapError_bind]
      cases conversion.run direction walked with
      | error error =>
          exact congrArg Except.error (TranscodingError.anchored_anchored front path error).symm
      | ok carried => exact far path _ carried

/-- **A walk at a path** is the walk at the root with its errors anchored. -/
theorem transcodeAt_eq_anchored (direction : Direction) (path : String)
    (inputName : String → String) (schema : Schema) (value : Value) :
    transcodeAt direction path inputName schema value =
      (transcodeAt direction "" inputName schema value).mapError (·.anchored path) := by
  have anchored := isAnchored direction path schema "" inputName value
  rw [String.append_empty] at anchored
  exact anchored

/-- **An error of a walk at a path** points to the value there or below it. -/
theorem exists_path_of_transcodeAt {direction : Direction} {path : String}
    {inputName : String → String} {schema : Schema} {value : Value} {error : TranscodingError}
    (fails : transcodeAt direction path inputName schema value = .error error) :
    ∃ below, error.path = path ++ below := by
  rw [transcodeAt_eq_anchored] at fails
  obtain ⟨inner, _, rfl⟩ := mapError_eq_error_iff.mp fails
  exact ⟨inner.path, rfl⟩

end Schema

end WireSchema

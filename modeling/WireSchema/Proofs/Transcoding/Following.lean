import WireSchema.Proofs.Runs
import WireSchema.Proofs.Transcoding.Outputs

/-! # Following structs and tuples

When the types inside a struct are replaced by others that give the same outputs but for a change,
and the same errors, the struct itself does; and so for tuples. Unlike agreement, which looks at
outcomes only, this keeps errors and their paths. -/

namespace WireSchema.Schema

open Members

variable {excused : TranscodingError → Prop} {direction : Direction} {path : String}
  {inputName : String → String}

/-! ## (1) Structs -/

section Structs

variable {fields : List (Field Schema)} {index : Option (IndexSignature Schema)}
  {retype : Field Schema → Field Schema}
  {resign : IndexSignature Schema → IndexSignature Schema} {change : String → Value → Value}

/-- The outputs of fields follow those of other fields if each type follows its own. -/
theorem followsUnless_fieldOutputs (named : ∀ field, (retype field).name = field.name)
    (optional : ∀ field, (retype field).isOptional = field.isOptional)
    (members : List (String × Value))
    (follows : ∀ field ∈ fields, ∀ path value, FollowsUnless excused (change field.name)
      (transcodeAt direction path id (retype field).type value)
      (transcodeAt direction path id field.type value)) :
    FollowsUnless excused (mapValues change)
      (fieldOutputs direction path inputName members (fields.map retype))
      (fieldOutputs direction path inputName members fields) := by
  induction fields with
  | nil => exact .ok []
  | cons field rest induction =>
      rw [List.forall_mem_cons] at follows
      rw [List.map_cons, fieldOutputs, fieldOutputs, named, optional]
      cases find? members field.name with
      | none =>
          by_cases mayMiss : field.isOptional = true
          · simp only [if_pos mayMiss]
            exact induction follows.2
          · simp only [if_neg mayMiss]
            exact .error _
      | some value =>
          apply (follows.1 _ value).bind
          intro output _
          exact (induction follows.2).bind fun outputs _ => .ok ((field.name, output) :: outputs)

/-- The outputs of undeclared members follow each other if the types do. -/
theorem followsUnless_undeclaredOutputs {declared : List String} {type retyped : Schema}
    (members : List (String × Value))
    (follows : ∀ key ∉ declared, ∀ path value, FollowsUnless excused (change key)
      (transcodeAt direction path id retyped value) (transcodeAt direction path id type value)) :
    FollowsUnless excused (mapValues change)
      (undeclaredOutputs direction path declared retyped members)
      (undeclaredOutputs direction path declared type members) := by
  induction members with
  | nil => exact .ok []
  | cons member rest induction =>
      obtain ⟨key, value⟩ := member
      rw [undeclaredOutputs, undeclaredOutputs]
      by_cases known : key ∈ declared
      · simp only [List.contains_iff_mem, if_pos known]
        exact induction
      · simp only [List.contains_iff_mem, if_neg known]
        apply (follows key known _ value).bind
        intro output _
        exact induction.bind fun outputs _ => .ok ((key, output) :: outputs)

/-- **A struct follows** another one of the same names when its types follow those of the other. -/
theorem followsUnless_struct {whole : Value → Value}
    (named : ∀ field, (retype field).name = field.name)
    (optional : ∀ field, (retype field).isOptional = field.isOptional)
    (objects : ∀ members, whole (.object members) = .object (mapValues change members))
    (declaredFollow : ∀ field ∈ fields, ∀ path value, FollowsUnless excused (change field.name)
      (transcodeAt direction path id (retype field).type value)
      (transcodeAt direction path id field.type value))
    (othersFollow : ∀ signature ∈ index, ∀ key ∉ fields.map Field.name, ∀ path value,
      FollowsUnless excused (change key)
        (transcodeAt direction path id (resign signature).value value)
        (transcodeAt direction path id signature.value value)) (value : Value) :
    FollowsUnless excused whole
      (transcodeAt direction path inputName (.struct (fields.map retype) (index.map resign)) value)
      (transcodeAt direction path inputName (.struct fields index) value) := by
  have names : (fields.map retype).map Field.name = fields.map Field.name := by simp [named]
  cases value with
  | object members =>
      rw [transcodeAt_struct, transcodeAt_struct, names]
      refine (followsUnless_fieldOutputs named optional members declaredFollow).bind
        fun declared _ => ?_
      have others : FollowsUnless excused (mapValues change)
          (otherOutputs direction path (fields.map Field.name) (index.map resign) members)
          (otherOutputs direction path (fields.map Field.name) index members) := by
        cases index with
        | none => exact .ok []
        | some signature => exact followsUnless_undeclaredOutputs members (othersFollow _ rfl)
      -- values change in place, before the members are written as after it
      refine others.bind fun rest _ => Or.inr ?_
      rw [← mapValues_append, ofList_mapValues, ← objects]
      rfl
  | _ =>
      rw [transcodeAt_struct_of_not_object _ _ _ _ _ rfl,
        transcodeAt_struct_of_not_object _ _ _ _ _ rfl]
      exact .error _

end Structs

/-! ## (2) Tuples -/

/-- The outputs of items follow each other if the slots do. -/
theorem followsUnless_itemOutputs {slot reslot : Nat → Schema} {change : Nat → Value → Value}
    (path : String) (position : Nat) (items : List Value)
    (follows : ∀ index path value, FollowsUnless excused (change index)
      (transcodeAt direction path id (reslot index) value)
      (transcodeAt direction path id (slot index) value)) :
    FollowsUnless excused (List.mapIdx change) (itemOutputs direction path reslot position items)
      (itemOutputs direction path slot position items) := by
  induction items generalizing slot reslot change position with
  | nil => exact .ok []
  | cons item items induction =>
      rw [itemOutputs, itemOutputs]
      apply (follows 0 _ item).bind
      intro output _
      refine (induction (position + 1) fun index path value => follows (index + 1) path value).bind
        fun outputs _ => Or.inr ?_
      show Except.ok _ = Except.ok (List.mapIdx change (output :: outputs))
      rw [List.mapIdx_cons]

end WireSchema.Schema

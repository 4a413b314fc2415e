import WireSchema.Json.Basic

/-! # Induction over documents

What holds of an array when it holds of its items, and of an object when it holds of the values of
its members, holds of every document. -/

namespace WireSchema.Json

variable {motive : Json → Prop}

/-- **Induction over documents**, with the parts of arrays and objects by membership. -/
@[elab_as_elim]
theorem induction (null : motive .null) (bool : ∀ value, motive (.bool value))
    (number : ∀ value, motive (.number value)) (string : ∀ value, motive (.string value))
    (array : ∀ items, (∀ item ∈ items, motive item) → motive (.array items))
    (object : ∀ members, (∀ member ∈ members, motive member.2) → motive (.object members)) :
    ∀ json, motive json
  | .null => null
  | .bool value => bool value
  | .number value => number value
  | .string value => string value
  | .array items => array items fun item _ => induction null bool number string array object item
  | .object members =>
      object members fun member _ => induction null bool number string array object member.2
termination_by json => sizeOf json
decreasing_by
  · have smaller := List.sizeOf_lt_of_mem ‹item ∈ items›
    rw [Json.array.sizeOf_spec]
    omega
  · have smaller := List.sizeOf_lt_of_mem ‹member ∈ members›
    have inner : sizeOf member.2 < sizeOf member := by
      obtain ⟨name, value⟩ := member
      show sizeOf value < sizeOf (name, value)
      rw [Prod.mk.sizeOf_spec]
      omega
    rw [Json.object.sizeOf_spec]
    omega

end WireSchema.Json

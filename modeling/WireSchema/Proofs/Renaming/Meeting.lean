import WireSchema.Proofs.Renaming.Applied
import WireSchema.Proofs.SchemaDocument.Schemas
import WireSchema.Proofs.Value.DistinctKeys

/-! # Schemas along values

Where a documented schema meets the parts of a value: structs meet objects, tuples meet arrays, and
each type inside meets what it is read or written at. That a schema meets a value is shown once
(`meets_of_documented`), and what is proved of a schema and a value goes by induction over it. -/

namespace WireSchema.Schema

open Members

/-- **A schema meets a value** when the renames of each struct and each tuple apply where they
stand, and no object that stands at a struct repeats a key. -/
inductive Meets : Schema → Value → Prop
  /-- A leaf meets any value. -/
  | leaf (kind : LeafType) (value : Value) : Meets (.leaf kind) value
  /-- A struct meets an object when the types inside it meet what is in the object, under whichever
  keys. -/
  | object {fields : List (Field Schema)} {index : Option (IndexSignature Schema)}
      {applied : Schema} {members : List (String × Value)} (names : (fields.map Field.name).Nodup)
      (applies : (Schema.struct fields index).applyRenames = .ok applied)
      (unique : (keys members).Nodup)
      (declared : ∀ field ∈ fields, ∀ key inner, find? members key = some inner →
        Meets field.type inner)
      (others : ∀ signature ∈ index, ∀ key inner, find? members key = some inner →
        Meets signature.value inner) : Meets (.struct fields index) (.object members)
  /-- A struct meets what is no object. -/
  | noObject {fields : List (Field Schema)} {index : Option (IndexSignature Schema)}
      {applied : Schema} {value : Value}
      (applies : (Schema.struct fields index).applyRenames = .ok applied)
      (other : value.members? = none) : Meets (.struct fields index) value
  /-- A tuple meets an array when its slots meet the items. -/
  | array {elements : List (Element Schema)} {rest : Option Schema} {isReadonly : Bool}
      {applied : Schema} {items : List Value}
      (applies : (Schema.tuple elements rest isReadonly).applyRenames = .ok applied)
      (slots : ∀ position item, items[position]? = some item →
        Meets (slotType elements rest position) item) :
      Meets (.tuple elements rest isReadonly) (.array items)
  /-- A tuple meets what is no array. -/
  | noArray {elements : List (Element Schema)} {rest : Option Schema} {isReadonly : Bool}
      {applied : Schema} {value : Value}
      (applies : (Schema.tuple elements rest isReadonly).applyRenames = .ok applied)
      (other : value.items? = none) : Meets (.tuple elements rest isReadonly) value
  /-- The codec of timestamps meets any value. -/
  | timestampText (value : Value) : Meets .timestampText value
  /-- A codec of truth values meets any value. -/
  | booleanText (truthy falsy : String) (value : Value) : Meets (.booleanText truthy falsy) value

/-- **A documented schema whose renames apply meets every value that repeats no key.** -/
theorem meets_of_documented {schema applied : Schema} (documented : schema.Documented)
    (applies : schema.applyRenames = .ok applied) {value : Value}
    (distinct : value.HasDistinctKeys) : schema.Meets value := by
  induction documented generalizing applied value with
  | leaf kind => exact .leaf kind value
  | @struct fields index names _ _ fieldsInduction indexInduction =>
      obtain ⟨eachField, eachIndex, _, _⟩ := applyRenames_struct_eq_ok applies
      cases value with
      | object members =>
          refine .object names applies distinct.nodup_keys ?_ ?_
          · intro field held key inner found
            exact fieldsInduction field held (eachField field held) (distinct.of_find? found)
          · intro signature isOpen key inner found
            exact indexInduction signature isOpen (eachIndex signature isOpen)
              (distinct.of_find? found)
      | _ => exact .noObject applies rfl
  | @tuple elements rest isReadonly _ _ elementsInduction restInduction =>
      obtain ⟨eachElement, eachRest, _⟩ := applyRenames_tuple_eq_ok applies
      cases value with
      | array items =>
          refine .array applies fun position item found => ?_
          have itemDistinct := distinct.of_getElem? found
          refine slotType_induction (motive := fun slot => slot.Meets item) ?_ ?_ ?_ position
          · intro element held
            exact elementsInduction element held (eachElement element held) itemDistinct
          · intro type held
            exact restInduction type held (eachRest type held) itemDistinct
          · exact .leaf .unknown item
      | _ => exact .noArray applies rfl
  | timestampText => exact .timestampText value
  | booleanText truthy falsy => exact .booleanText truthy falsy value

end WireSchema.Schema

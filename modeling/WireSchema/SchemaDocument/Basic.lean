import WireSchema.Schema.Basic

/-! # Schema documents

A schema as a JSON document describes it: leaves, structs, tuples and the two conversions that
documents can name. The names of the fields of a struct may still repeat, and the kind of the keys
of an index signature may be left open. -/

namespace WireSchema

/-- An index signature of a schema document. -/
structure IndexEntry (τ : Type) where
  /-- The kind of the keys, if it is given. -/
  key : Option LeafType
  /-- The type of the values. -/
  value : τ
  /-- Whether the keys are marked as read-only. -/
  isReadonly : Bool

/-- **A schema document**. -/
inductive SchemaDocument where
  /-- A leaf. -/
  | leaf (kind : LeafType)
  /-- A struct. -/
  | struct (fields : List (Field SchemaDocument)) (index : Option (IndexEntry SchemaDocument))
  /-- A tuple. -/
  | tuple (elements : List (Element SchemaDocument)) (rest : Option SchemaDocument)
      (isReadonly : Bool)
  /-- Timestamps, written as texts. -/
  | timestampText
  /-- Truth values, written as one of two texts. -/
  | booleanText (truthy falsy : String)

namespace SchemaDocument

/-! ## Schemas of documents -/

/-- A field of a struct repeats the name of an earlier one. -/
structure RepeatedField where
  /-- The repeated name. -/
  name : String
  /-- The place of the struct. -/
  place : String
  deriving DecidableEq

/-- The text of a repetition. -/
def RepeatedField.message (repeated : RepeatedField) : String :=
  s!"duplicate field `{repeated.name}` in struct at {repeated.place}"

/-- The place of a schema document itself. -/
def rootPlace : String := "$"

/-- The place of the type of a field. -/
def fieldPlace (place name : String) : String := place ++ "." ++ name

/-- The place of the type of an element. -/
def elementPlace (place : String) (position : Nat) : String :=
  place ++ "[" ++ Pointer.position position ++ "]"

/-- The place of an index type or a rest type. -/
def restPlace (place : String) : String := place ++ "[..]"

mutual

/-- The schema that the document at a place describes; a name is checked before the type of its
field is looked into. -/
def toSchemaAt (place : String) : SchemaDocument → Except RepeatedField Schema
  | .leaf kind => .ok (.leaf kind)
  | .struct fields index => do
      let fields ← toSchemaFields place [] fields
      let index ← toSchemaIndex place index
      return .struct fields index
  | .tuple elements rest isReadonly => do
      let elements ← toSchemaElements place 0 elements
      let rest ← toSchemaRest place rest
      return .tuple elements rest isReadonly
  | .timestampText => .ok .timestampText
  | .booleanText truthy falsy => .ok (.booleanText truthy falsy)

/-- The fields that those of the struct at a place describe, given the names before them. -/
def toSchemaFields (place : String) :
    List String → List (Field SchemaDocument) → Except RepeatedField (List (Field Schema))
  | _, [] => .ok []
  | seen, field :: rest =>
      if seen.contains field.name then .error ⟨field.name, place⟩
      else do
        let type ← toSchemaAt (fieldPlace place field.name) field.type
        let fields ← toSchemaFields place (field.name :: seen) rest
        return { field with type := type } :: fields

/-- The index signature that that of the struct at a place describes; keys are texts unless another
kind is given. -/
def toSchemaIndex (place : String) :
    Option (IndexEntry SchemaDocument) → Except RepeatedField (Option (IndexSignature Schema))
  | none => .ok none
  | some index => do
      let value ← toSchemaAt (restPlace place) index.value
      return some ⟨index.key.getD .string, value, index.isReadonly⟩

/-- The elements that those of the tuple at a place describe, from a position on. -/
def toSchemaElements (place : String) :
    Nat → List (Element SchemaDocument) → Except RepeatedField (List (Element Schema))
  | _, [] => .ok []
  | position, element :: rest => do
      let type ← toSchemaAt (elementPlace place position) element.type
      let elements ← toSchemaElements place (position + 1) rest
      return { element with type := type } :: elements

/-- The rest type that that of the tuple at a place describes. -/
def toSchemaRest (place : String) :
    Option SchemaDocument → Except RepeatedField (Option Schema)
  | none => .ok none
  | some rest => do
      let rest ← toSchemaAt (restPlace place) rest
      return some rest

end

/-- The schema that a document describes. -/
def toSchema (document : SchemaDocument) : Except RepeatedField Schema :=
  document.toSchemaAt rootPlace

end SchemaDocument

end WireSchema

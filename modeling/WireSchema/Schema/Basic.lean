import WireSchema.Conversion

/-! # Schemas

A schema is a tree of leaves, structs, tuples and codecs. The parts of structs and tuples are
parameterised by what stands for a type in them, so that schema documents share them. -/

namespace WireSchema

/-- The kind of a leaf. -/
inductive LeafType where
  /-- Any value. -/
  | unknown
  /-- The value `null`. -/
  | null
  /-- Truth values. -/
  | boolean
  /-- Numbers. -/
  | number
  /-- Texts. -/
  | string
  /-- Timestamps. -/
  | date
  /-- A kind that is defined elsewhere. -/
  | named (name : String)
  deriving DecidableEq

/-- The name of a leaf kind. -/
def LeafType.name : LeafType → String
  | .unknown => "unknown"
  | .null => "null"
  | .boolean => "boolean"
  | .number => "number"
  | .string => "string"
  | .date => "date"
  | .named name => name

/-- **A field** of a struct. -/
structure Field (τ : Type) where
  /-- The name on the decoded side. -/
  name : String
  /-- The type of the values. -/
  type : τ
  /-- Whether the field may be absent. -/
  isOptional : Bool
  /-- Whether the field is marked as read-only. -/
  isReadonly : Bool
  /-- The name on the encoded side, if it is another one. -/
  rename : Option String
  /-- Marks of any kind, which are carried along. -/
  annotations : List (String × Json)

/-- **An index signature**: the type of the keys that a struct holds besides its fields. -/
structure IndexSignature (τ : Type) where
  /-- The kind of the keys. -/
  key : LeafType
  /-- The type of the values. -/
  value : τ
  /-- Whether the keys are marked as read-only. -/
  isReadonly : Bool

/-- **An element** of a tuple. -/
structure Element (τ : Type) where
  /-- The type of the item. -/
  type : τ
  /-- Whether the item may be absent. -/
  isOptional : Bool

/-- **A schema**. -/
inductive Schema where
  /-- Values that are passed on as they are. -/
  | leaf (kind : LeafType)
  /-- Objects with declared fields, and with undeclared keys if there is an index signature. -/
  | struct (fields : List (Field Schema)) (index : Option (IndexSignature Schema))
  /-- Arrays with an element for each position, and with a type for the items behind them. -/
  | tuple (elements : List (Element Schema)) (rest : Option Schema) (isReadonly : Bool)
  /-- Values of two shapes with a conversion between them; the source is the encoded side. -/
  | codec (source target : Schema) (conversion : Conversion)

namespace Schema

/-- The leaf that any value is. -/
def unknown : Schema := .leaf .unknown

/-- Timestamps, written as texts. -/
def timestampText : Schema := .codec (.leaf .string) (.leaf .date) .timestampText

/-- Truth values, written as one of two texts. -/
def booleanText (truthy falsy : String) : Schema :=
  .codec (.leaf .string) (.leaf .boolean) (.booleanText truthy falsy)

/-- The name of the kind of a schema. -/
def kind : Schema → String
  | .leaf _ => "leaf"
  | .struct _ _ => "struct"
  | .tuple _ _ _ => "tuple"
  | .codec _ _ _ => "codec"

/-- The fields of a struct. -/
def fields? : Schema → Option (List (Field Schema))
  | .struct fields _ => some fields
  | _ => none

/-- The index signature of a struct. -/
def index? : Schema → Option (IndexSignature Schema)
  | .struct _ index => index
  | _ => none

/-- The elements of a tuple. -/
def elements? : Schema → Option (List (Element Schema))
  | .tuple elements _ _ => some elements
  | _ => none

/-- The conversion of a codec. -/
def conversion? : Schema → Option Conversion
  | .codec _ _ conversion => some conversion
  | _ => none

end Schema

end WireSchema

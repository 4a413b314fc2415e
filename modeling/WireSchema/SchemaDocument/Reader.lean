import WireSchema.SchemaDocument.Basic
import WireSchema.SchemaDocument.Record
import WireSchema.SchemaDocument.Skipped

/-! # Reading schema documents

The grammar of schema documents, as alternatives and records. The text is read from left to right up
to the end of the document; what follows it is ignored. -/

namespace WireSchema.SchemaDocument

open Json (Written Piece Ending Location Segment)

/-! ## (1) Leaves and conversions -/

/-- The names of the leaf kinds. -/
def leafNames : List String := ["unknown", "null", "boolean", "number", "string", "date", "named"]

/-- The leaf kind of a name without content. -/
def plainLeaf? : String → Option LeafType
  | "unknown" => some .unknown
  | "null" => some .null
  | "boolean" => some .boolean
  | "number" => some .number
  | "string" => some .string
  | "date" => some .date
  | _ => none

/-- What an alternative with one text or record as its content is expected to be. -/
def contentVariant : String := "newtype variant"

/-- Read a leaf kind. -/
def readLeaf (levels : Nat) (location : Location) : Written → Reading LeafType
  | .string pieces => do
      let name ← readVariant location leafNames pieces
      match plainLeaf? name with
      | some kind => return kind
      | none => contentMissing location name contentVariant
  | .object members ending => do
      let _ ← ofJson location (Json.enter levels)
      match members with
      | [] => noVariant location ending
      | (pieces, content) :: others =>
          let name ← readVariant location leafNames pieces
          let inside ← enterMember location name false content
          let kind ←
            match plainLeaf? name with
            | some kind => (readUnit inside content).map fun _ => kind
            | none => (readText inside content).map .named
          variantEnd location others ending
          return kind
  | other => notVariant location other

/-- Read a leaf kind, or `null` for none. -/
def readOptionalLeaf (levels : Nat) (location : Location) (value : Written) :
    Reading (Option LeafType) :=
  orNull location value (readLeaf levels location value)

/-- What the record of the two texts of truth values is called. -/
def booleanRecord : String := "struct variant CodecDoc::BooleanFromLiteral"

/-- Read the members of the record of two texts; members of other names are skipped. -/
def readBooleanMembers (location : Location) :
    List (List Piece × Written) → Ending → Option String → Option String →
      Reading (String × String)
  | [], ending, truthy, falsy => do
      recordEnd location ending
      return (← required location "true" truthy, ← required location "false" falsy)
  | (pieces, value) :: rest, ending, truthy, falsy => do
      match ← readName location pieces with
      | "true" =>
          let inside ← enterMember location "true" truthy.isSome value
          let text ← readText inside value
          readBooleanMembers location rest ending (some text) falsy
      | "false" =>
          let inside ← enterMember location "false" falsy.isSome value
          let text ← readText inside value
          readBooleanMembers location rest ending truthy (some text)
      | name =>
          let inside ← enterMember location name false value
          -- the value is passed over without being read
          ofJson inside (skip value)
          readBooleanMembers location rest ending truthy falsy

/-- Read the record of the two texts of truth values. -/
def readBoolean (levels : Nat) (location : Location) : Written → Reading (String × String)
  | .object members ending => do
      -- the two texts nest no further, so the depth that is left does not matter
      let _ ← ofJson location (Json.enter levels)
      readBooleanMembers location members ending none none
  | .array items ending => do
      let _ ← ofJson location (Json.enter levels)
      let expected := booleanRecord ++ " with 2 elements"
      match items with
      | [] => positionMissing location ending 0 expected
      | [first] => do
          let _ ← readText (location ++ [.item 0]) first
          positionMissing location ending 1 expected
      | first :: second :: others => do
          let truthy ← readText (location ++ [.item 0]) first
          let falsy ← readText (location ++ [.item 1]) second
          positionsEnd location others ending
          return (truthy, falsy)
  | other => wrongType location other booleanRecord

/-- The names of the conversions. -/
def codecNames : List String := ["date-from-string", "boolean-from-literal"]

/-- Read a conversion. -/
def readCodec (levels : Nat) (location : Location) : Written → Reading SchemaDocument
  | .string pieces => do
      let name ← readVariant location codecNames pieces
      if name = "date-from-string" then return .timestampText
      -- the other conversion cannot be named without its texts
      else contentMissing location name "struct variant"
  | .object members ending => do
      let inner ← ofJson location (Json.enter levels)
      match members with
      | [] => noVariant location ending
      | (pieces, content) :: others =>
          let name ← readVariant location codecNames pieces
          let inside ← enterMember location name false content
          let document ←
            if name = "date-from-string" then
              (readUnit inside content).map fun _ => timestampText
            else
              (readBoolean inner inside content).map fun texts => booleanText texts.1 texts.2
          variantEnd location others ending
          return document
  | other => notVariant location other

/-! ## (2) Schemas -/

/-- The names of the kinds of schemas. -/
def schemaNames : List String := ["leaf", "struct", "tuple", "codec"]

/-- The members of a struct. -/
def structNames : List String := ["fields", "index"]

/-- The members of an index signature. -/
def indexNames : List String := ["key", "type", "readonly"]

/-- The members of a field. -/
def fieldNames : List String :=
  ["name", "type", "optional", "readonly", "rename", "annotations"]

/-- The members of a tuple. -/
def tupleNames : List String := ["elements", "rest", "readonly"]

/-- The members of an element. -/
def elementNames : List String := ["type", "optional"]

/-- What a record is expected to be in its array form. -/
def recordLength (record : String) (names : List String) : String :=
  s!"{record} with {names.length} elements"

/-- The members of a field as far as they have been read. -/
structure FieldMembers where
  /-- The name. -/
  name : Option String
  /-- The type. -/
  type : Option SchemaDocument
  /-- Whether the field may be absent. -/
  isOptional : Option Bool
  /-- Whether the field is marked as read-only. -/
  isReadonly : Option Bool
  /-- The rename, which may be `null`. -/
  rename : Option (Option String)
  /-- The annotations. -/
  annotations : Option (List (String × Json))

/-- The field with the given members; name and type are required. -/
def FieldMembers.toField (members : FieldMembers) (location : Location) :
    Reading (Field SchemaDocument) := do
  let name ← required location "name" members.name
  let type ← required location "type" members.type
  return ⟨name, type, members.isOptional.getD false, members.isReadonly.getD false,
    members.rename.getD none, members.annotations.getD []⟩

/-- Read the members of a field behind its name and its type from the array form. -/
def readFieldPositions (levels : Nat) (location : Location) (ending : Ending) (name : String)
    (type : SchemaDocument) (items : List Written) : Reading (Field SchemaDocument) := do
  let (isOptional, items) ← readPosition location ending 2 false readFlag items
  let (isReadonly, items) ← readPosition location ending 3 false readFlag items
  let (rename, items) ← readPosition location ending 4 none readOptionalText items
  let (annotations, others) ← readPosition location ending 5 [] (readAnnotations levels) items
  positionsEnd location others ending
  return ⟨name, type, isOptional, isReadonly, rename, annotations⟩

mutual

/-- Read a schema. -/
def readSchema (levels : Nat) (location : Location) : Written → Reading SchemaDocument
  | .string pieces => do
      let name ← readVariant location schemaNames pieces
      -- no kind of schema is named without its content
      contentMissing location name contentVariant
  | .object [] ending => do
      let _ ← ofJson location (Json.enter levels)
      noVariant location ending
  | .object ((pieces, content) :: others) ending => do
      let inner ← ofJson location (Json.enter levels)
      let name ← readVariant location schemaNames pieces
      let inside ← enterMember location name false content
      let document ←
        match name with
        | "leaf" => (readLeaf inner inside content).map leaf
        | "struct" => readStruct inner inside content
        | "tuple" => readTuple inner inside content
        | _ => readCodec inner inside content
      -- what follows the content is looked at last, so an error inside it comes first
      variantEnd location others ending
      return document
  | other => notVariant location other

/-- Read a struct. -/
def readStruct (levels : Nat) (location : Location) : Written → Reading SchemaDocument
  | .object members ending => do
      let inner ← ofJson location (Json.enter levels)
      readStructMembers inner location members ending none none
  | .array items ending => do
      let inner ← ofJson location (Json.enter levels)
      match items with
      | [] => positionMissing location ending 0 (recordLength "struct StructDoc" structNames)
      | [first] => do
          let fields ← readFields inner (location ++ [.item 0]) first
          -- the index signature has a default, the fields have none
          positionsCut location ending
          return .struct fields none
      | first :: second :: others => do
          let fields ← readFields inner (location ++ [.item 0]) first
          let index ← orNull (location ++ [.item 1]) second
            (readIndex inner (location ++ [.item 1]) second)
          positionsEnd location others ending
          return .struct fields index
  | other => wrongType location other "struct StructDoc"

/-- Read the members of a struct, given those before them. -/
def readStructMembers (levels : Nat) (location : Location) :
    List (List Piece × Written) → Ending → Option (List (Field SchemaDocument)) →
      Option (Option (IndexEntry SchemaDocument)) → Reading SchemaDocument
  | [], ending, fields, index => do
      recordEnd location ending
      return .struct (← required location "fields" fields) (index.getD none)
  | (pieces, value) :: rest, ending, fields, index => do
      match ← readName location pieces with
      | "fields" =>
          let inside ← enterMember location "fields" fields.isSome value
          let fields ← readFields levels inside value
          readStructMembers levels location rest ending (some fields) index
      | "index" =>
          let inside ← enterMember location "index" index.isSome value
          let index ← orNull inside value (readIndex levels inside value)
          readStructMembers levels location rest ending fields (some index)
      | name => fail (location ++ [.member name]) (.unknownField name structNames)

/-- Read an array of fields. -/
def readFields (levels : Nat) (location : Location) :
    Written → Reading (List (Field SchemaDocument))
  | .array items ending => do
      let inner ← ofJson location (Json.enter levels)
      let fields ← readFieldItems inner location 0 items
      -- items are read as far as they are written, before the end is looked at
      ofJson location (Json.arrayEnd ending)
      return fields
  | other => wrongType location other "a sequence"

/-- Read fields from a position on. -/
def readFieldItems (levels : Nat) (location : Location) :
    Nat → List Written → Reading (List (Field SchemaDocument))
  | _, [] => .ok []
  | position, item :: rest => do
      let field ← readField levels (location ++ [.item position]) item
      let fields ← readFieldItems levels location (position + 1) rest
      return field :: fields

/-- Read a field. -/
def readField (levels : Nat) (location : Location) : Written → Reading (Field SchemaDocument)
  | .object members ending => do
      let inner ← ofJson location (Json.enter levels)
      readFieldMembers inner location members ending ⟨none, none, none, none, none, none⟩
  | .array items ending => do
      let inner ← ofJson location (Json.enter levels)
      match items with
      | [] => positionMissing location ending 0 (recordLength "struct FieldDoc" fieldNames)
      | [first] => do
          -- the name is read first, so its error hides that of the missing type
          let _ ← readText (location ++ [.item 0]) first
          positionMissing location ending 1 (recordLength "struct FieldDoc" fieldNames)
      | first :: second :: others => do
          let name ← readText (location ++ [.item 0]) first
          let type ← readSchema inner (location ++ [.item 1]) second
          readFieldPositions inner location ending name type others
  | other => wrongType location other "struct FieldDoc"

/-- Read the members of a field, given those before them. -/
def readFieldMembers (levels : Nat) (location : Location) :
    List (List Piece × Written) → Ending → FieldMembers → Reading (Field SchemaDocument)
  | [], ending, before => do
      recordEnd location ending
      before.toField location
  | (pieces, value) :: rest, ending, before => do
      match ← readName location pieces with
      | "name" =>
          let inside ← enterMember location "name" before.name.isSome value
          let name ← readText inside value
          readFieldMembers levels location rest ending { before with name := some name }
      | "type" =>
          let inside ← enterMember location "type" before.type.isSome value
          let type ← readSchema levels inside value
          readFieldMembers levels location rest ending { before with type := some type }
      | "optional" =>
          let inside ← enterMember location "optional" before.isOptional.isSome value
          let flag ← readFlag inside value
          readFieldMembers levels location rest ending { before with isOptional := some flag }
      | "readonly" =>
          let inside ← enterMember location "readonly" before.isReadonly.isSome value
          let flag ← readFlag inside value
          readFieldMembers levels location rest ending { before with isReadonly := some flag }
      | "rename" =>
          let inside ← enterMember location "rename" before.rename.isSome value
          let rename ← readOptionalText inside value
          readFieldMembers levels location rest ending { before with rename := some rename }
      | "annotations" =>
          let inside ← enterMember location "annotations" before.annotations.isSome value
          let annotations ← readAnnotations levels inside value
          readFieldMembers levels location rest ending
            { before with annotations := some annotations }
      | name => fail (location ++ [.member name]) (.unknownField name fieldNames)

/-- Read an index signature. -/
def readIndex (levels : Nat) (location : Location) :
    Written → Reading (IndexEntry SchemaDocument)
  | .object members ending => do
      let inner ← ofJson location (Json.enter levels)
      readIndexMembers inner location members ending none none none
  | .array items ending => do
      let inner ← ofJson location (Json.enter levels)
      match items with
      | [] => positionMissing location ending 1 (recordLength "struct IndexDoc" indexNames)
      | [first] => do
          let _ ← readOptionalLeaf inner (location ++ [.item 0]) first
          positionMissing location ending 1 (recordLength "struct IndexDoc" indexNames)
      | first :: second :: others => do
          let key ← readOptionalLeaf inner (location ++ [.item 0]) first
          let value ← readSchema inner (location ++ [.item 1]) second
          let (isReadonly, others) ← readPosition location ending 2 false readFlag others
          positionsEnd location others ending
          return ⟨key, value, isReadonly⟩
  | other => wrongType location other "struct IndexDoc"

/-- Read the members of an index signature, given those before them. -/
def readIndexMembers (levels : Nat) (location : Location) :
    List (List Piece × Written) → Ending → Option (Option LeafType) → Option SchemaDocument →
      Option Bool → Reading (IndexEntry SchemaDocument)
  | [], ending, key, value, isReadonly => do
      recordEnd location ending
      return ⟨key.getD none, ← required location "type" value, isReadonly.getD false⟩
  | (pieces, written) :: rest, ending, key, value, isReadonly => do
      match ← readName location pieces with
      | "key" =>
          let inside ← enterMember location "key" key.isSome written
          let key ← readOptionalLeaf levels inside written
          readIndexMembers levels location rest ending (some key) value isReadonly
      | "type" =>
          let inside ← enterMember location "type" value.isSome written
          let value ← readSchema levels inside written
          readIndexMembers levels location rest ending key (some value) isReadonly
      | "readonly" =>
          let inside ← enterMember location "readonly" isReadonly.isSome written
          let flag ← readFlag inside written
          readIndexMembers levels location rest ending key value (some flag)
      | name => fail (location ++ [.member name]) (.unknownField name indexNames)

/-- Read a tuple. -/
def readTuple (levels : Nat) (location : Location) : Written → Reading SchemaDocument
  | .object members ending => do
      let inner ← ofJson location (Json.enter levels)
      readTupleMembers inner location members ending none none none
  | .array items ending => do
      let inner ← ofJson location (Json.enter levels)
      match items with
      | [] => do
          positionsCut location ending
          return .tuple [] none false
      | [first] => do
          let elements ← readElements inner (location ++ [.item 0]) first
          positionsCut location ending
          return .tuple elements none false
      | first :: second :: others => do
          let elements ← readElements inner (location ++ [.item 0]) first
          let rest ← orNull (location ++ [.item 1]) second
            (readSchema inner (location ++ [.item 1]) second)
          let (isReadonly, others) ← readPosition location ending 2 false readFlag others
          positionsEnd location others ending
          return .tuple elements rest isReadonly
  | other => wrongType location other "struct TupleDoc"

/-- Read the members of a tuple, given those before them. -/
def readTupleMembers (levels : Nat) (location : Location) :
    List (List Piece × Written) → Ending → Option (List (Element SchemaDocument)) →
      Option (Option SchemaDocument) → Option Bool → Reading SchemaDocument
  | [], ending, elements, rest, isReadonly => do
      recordEnd location ending
      return .tuple (elements.getD []) (rest.getD none) (isReadonly.getD false)
  | (pieces, value) :: behind, ending, elements, rest, isReadonly => do
      match ← readName location pieces with
      | "elements" =>
          let inside ← enterMember location "elements" elements.isSome value
          let elements ← readElements levels inside value
          readTupleMembers levels location behind ending (some elements) rest isReadonly
      | "rest" =>
          let inside ← enterMember location "rest" rest.isSome value
          let rest ← orNull inside value (readSchema levels inside value)
          readTupleMembers levels location behind ending elements (some rest) isReadonly
      | "readonly" =>
          let inside ← enterMember location "readonly" isReadonly.isSome value
          let flag ← readFlag inside value
          readTupleMembers levels location behind ending elements rest (some flag)
      | name => fail (location ++ [.member name]) (.unknownField name tupleNames)

/-- Read an array of elements. -/
def readElements (levels : Nat) (location : Location) :
    Written → Reading (List (Element SchemaDocument))
  | .array items ending => do
      let inner ← ofJson location (Json.enter levels)
      let elements ← readElementItems inner location 0 items
      ofJson location (Json.arrayEnd ending)
      return elements
  | other => wrongType location other "a sequence"

/-- Read elements from a position on. -/
def readElementItems (levels : Nat) (location : Location) :
    Nat → List Written → Reading (List (Element SchemaDocument))
  | _, [] => .ok []
  | position, item :: rest => do
      let element ← readElement levels (location ++ [.item position]) item
      let elements ← readElementItems levels location (position + 1) rest
      return element :: elements

/-- Read an element. -/
def readElement (levels : Nat) (location : Location) :
    Written → Reading (Element SchemaDocument)
  | .object members ending => do
      let inner ← ofJson location (Json.enter levels)
      readElementMembers inner location members ending none none
  | .array items ending => do
      let inner ← ofJson location (Json.enter levels)
      match items with
      | [] => positionMissing location ending 0 (recordLength "struct ElementDoc" elementNames)
      | first :: others => do
          let type ← readSchema inner (location ++ [.item 0]) first
          let (isOptional, others) ← readPosition location ending 1 false readFlag others
          positionsEnd location others ending
          return ⟨type, isOptional⟩
  | other => wrongType location other "struct ElementDoc"

/-- Read the members of an element, given those before them. -/
def readElementMembers (levels : Nat) (location : Location) :
    List (List Piece × Written) → Ending → Option SchemaDocument → Option Bool →
      Reading (Element SchemaDocument)
  | [], ending, type, isOptional => do
      recordEnd location ending
      return ⟨← required location "type" type, isOptional.getD false⟩
  | (pieces, value) :: rest, ending, type, isOptional => do
      match ← readName location pieces with
      | "type" =>
          let inside ← enterMember location "type" type.isSome value
          let type ← readSchema levels inside value
          readElementMembers levels location rest ending (some type) isOptional
      | "optional" =>
          let inside ← enterMember location "optional" isOptional.isSome value
          let flag ← readFlag inside value
          readElementMembers levels location rest ending type (some flag)
      | name => fail (location ++ [.member name]) (.unknownField name elementNames)

end

/-! ## (3) Texts -/

/-- Read the document at the start of a text; what follows it is ignored. -/
def read (text : String) : Reading SchemaDocument :=
  readSchema Json.defaultDepth [] (Written.ofText text.toList).1

/-- Why a text describes no schema. -/
inductive ParseError where
  /-- The text is no schema document. -/
  | malformed (problem : Json.Located Problem)
  /-- A struct of the document repeats a name. -/
  | repeatedField (repeated : RepeatedField)

/-- The text of an error. A problem is told with its path in the document; the line and the column
that end its message (` at line 1 column 12`) are left out. -/
def ParseError.message : ParseError → String
  | .malformed problem =>
      s!"invalid schema document at JSON path {problem.location.render}: {problem.error.message}"
  | .repeatedField repeated => repeated.message

/-- The schema that a text describes. -/
def parse (text : String) : Except ParseError Schema := do
  let document ← (read text).mapError .malformed
  document.toSchema.mapError .repeatedField

end WireSchema.SchemaDocument

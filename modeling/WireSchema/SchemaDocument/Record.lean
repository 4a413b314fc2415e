import WireSchema.SchemaDocument.Problem

/-! # Alternatives and records

The two shapes that schema documents are made of. An **alternative** is a name, or an object with
that name as its only member and the content behind it. A **record** is an object with known
members, none of them repeated, or the array of its members in declaration order; members with a
default may be missing. -/

namespace WireSchema.SchemaDocument

open Json (Written Piece Ending Location Segment)

/-! ## (1) Plain values -/

/-- Read a text. -/
def readText (location : Location) : Written → Reading String
  | .string pieces => ofJson location (Piece.text pieces)
  | other => wrongType location other "a string"

/-- What is read from a value that may be `null` for none, given what is read from it otherwise. -/
def orNull {α : Type} (location : Location) (value : Written) (otherwise : Reading α) :
    Reading (Option α) :=
  match value with
  | .null => .ok none
  | .misspeltNull error => fail location (.notJson error)
  | _ => otherwise.map some

/-- Read a text, or `null` for none. -/
def readOptionalText (location : Location) (value : Written) : Reading (Option String) :=
  orNull location value (readText location value)

/-- Read a flag. -/
def readFlag (location : Location) : Written → Reading Bool
  | .bool value => .ok value
  | other => wrongType location other "a boolean"

/-- Read annotations: an object of any documents. -/
def readAnnotations (levels : Nat) (location : Location) :
    Written → Reading (List (String × Json))
  | .object members ending => do
      let inner ← ofJson location (Json.enter levels)
      let annotations ← (Json.readMembers inner location members []).mapError
        fun located => ⟨located.location, .notJson located.error⟩
      ofJson (location ++ [.unnamed]) (Json.objectEnd ending)
      -- a fault in the text behind the members is noticed after them
      return annotations
  | other => wrongType location other "a map"

/-! ## (2) Alternatives -/

/-- Read the name of an alternative. -/
def readVariant (location : Location) (known : List String) (pieces : List Piece) :
    Reading String := do
  let name ← ofJson location (Piece.text pieces)
  if known.contains name then return name else fail location (.unknownVariant name known)

/-- The end of an object that holds the name and the content of an alternative: no other member may
follow. -/
def variantEnd (location : Location) (others : List (List Piece × Written)) (ending : Ending) :
    Reading Unit :=
  match others, ending with
  | [], .closed => .ok ()
  | [], .cut => fail location (.notJson .endInObject)
  | _, _ => fail location (.notJson .valueExpected)

/-- The problem of an object without members where an alternative should stand. -/
def noVariant {α : Type} (location : Location) : Ending → Reading α
  | .cut => fail location (.notJson .endInObject)
  | .closed => fail location (.notJson .valueExpected)
  | _ => fail location (.notJson .nameExpected)

/-- The problem of a value that is no alternative. -/
def notVariant {α : Type} (location : Location) : Written → Reading α
  | .broken .endInValue => fail location (.notJson .endInValue)
  | _ => fail location (.notJson .valueExpected)

/-- The problem of an alternative that is named without its content. -/
def contentMissing {α : Type} (location : Location) (name content : String) : Reading α :=
  fail (location ++ [.member name]) (.invalidType "unit variant" content)

/-- Check that an alternative without content has none, or `null`. -/
def readUnit (location : Location) : Written → Reading Unit
  | .null => .ok ()
  | other => wrongType location other "unit"

/-! ## (3) Records -/

/-- Read the name of a member of a record. -/
def readName (location : Location) (pieces : List Piece) : Reading String :=
  ofJson (location ++ [.unnamed]) (Piece.text pieces)

/-- Enter the member of a record, which must not have been there before and must have a colon. -/
def enterMember (location : Location) (name : String) (isRepeated : Bool) (value : Written) :
    Reading Location := do
  if isRepeated then fail location (.duplicateField name)
  else
    -- the repetition is noticed at the name, before the colon is looked for
    ofJson location (Json.colonBefore value)
    return location ++ [.member name]

/-- The end of a record in its object form. -/
def recordEnd (location : Location) (ending : Ending) : Reading Unit :=
  ofJson (location ++ [.unnamed]) (Json.objectEnd ending)

/-- A member that must have been there. -/
def required {α : Type} (location : Location) (name : String) : Option α → Reading α
  | some value => .ok value
  | none => fail location (.missingField name)

/-- The end of a record in its array form before all its members have been read. -/
def positionsCut (location : Location) (ending : Ending) : Reading Unit :=
  ofJson location (Json.arrayEnd ending)

/-- The problem of an array that ends before a member without a default. -/
def positionMissing {α : Type} (location : Location) (ending : Ending) (position : Nat)
    (expected : String) : Reading α := do
  positionsCut location ending
  fail location (.invalidLength position expected)

/-- The end of a record in its array form after all its members have been read. -/
def positionsEnd (location : Location) (others : List Written) (ending : Ending) :
    Reading Unit :=
  match others, ending with
  | [], .closed => .ok ()
  | [], .cut => fail location (.notJson .endInArray)
  | [], .closedAfterComma => fail location (.notJson .trailingComma)
  -- items that are left over count as trailing characters, whatever they are
  | _, _ => fail location (.notJson .trailingCharacters)

/-- Read the member of a record at a position of its array form, if the array goes that far, and
leave the items behind it. -/
def readPosition {α : Type} (location : Location) (ending : Ending) (position : Nat) (default : α)
    (read : Location → Written → Reading α) : List Written → Reading (α × List Written)
  | [] => do
      positionsCut location ending
      return (default, [])
  | item :: rest => do
      let value ← read (location ++ [.item position]) item
      return (value, rest)

end WireSchema.SchemaDocument

import WireSchema.Json.Reader

/-! # Skipped values

A member that counts for nothing is only followed to its end. What is asked of it is less than what
is asked of a document, and a part that breaks off is reported in another way. -/

namespace WireSchema.SchemaDocument

open Json (Written Piece Ending)

/-- The error in a skipped array that ends in a given way, if that is an error. -/
def skippedArrayEnd : Ending → Except Json.SyntaxError Unit
  | .closedAfterComma => .error .valueExpected
  | ending => Json.arrayEnd ending

/-- The error in a skipped object that ends in a given way, if that is an error. -/
def skippedObjectEnd : Ending → Except Json.SyntaxError Unit
  | .cutAfterComma => .error .endInObject
  | .closedAfterComma => .error .nameExpected
  | ending => Json.objectEnd ending

/-- The error in a skipped text, if there is one. -/
def skipText (pieces : List Piece) : Except Json.SyntaxError Unit :=
  match Piece.skipError? pieces with
  | some error => .error error
  | none => .ok ()

mutual

/-- Skip a value of any depth; neither the range of numbers nor the pairing of surrogates
matters. -/
def skip : Written → Except Json.SyntaxError Unit
  | .null | .bool _ | .number _ => .ok ()
  | .string pieces => skipText pieces
  | .array items ending => do
      skipItems items
      skippedArrayEnd ending
  | .object members ending => do
      skipMembers members
      skippedObjectEnd ending
  | .misspeltNull error => .error error
  | .broken .endInNumber => .error .invalidNumber
  | .broken error => .error error

/-- Skip the items of an array. -/
def skipItems : List Written → Except Json.SyntaxError Unit
  | [] => .ok ()
  | item :: rest => do
      skip item
      skipItems rest

/-- Skip the members of an object. -/
def skipMembers : List (List Piece × Written) → Except Json.SyntaxError Unit
  | [] => .ok ()
  | (name, value) :: rest => do
      skipText name
      skip value
      skipMembers rest

end

end WireSchema.SchemaDocument

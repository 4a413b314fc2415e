import WireSchema.Json.Reader
import WireSchema.Text.Shown

/-! # Problems of schema documents

What can be wrong with a text that should be a schema document: it is no JSON, or a part of it is
not what the grammar of schema documents has at its place. -/

namespace WireSchema.SchemaDocument

/-- What is wrong with the text of a schema document. -/
inductive Problem where
  /-- The text is no JSON. -/
  | notJson (error : Json.SyntaxError)
  /-- A name is none of the alternatives. -/
  | unknownVariant (name : String) (known : List String)
  /-- A member is none of those of its record. -/
  | unknownField (name : String) (known : List String)
  /-- A member stands twice in its record. -/
  | duplicateField (name : String)
  /-- A required member is missing from its record. -/
  | missingField (name : String)
  /-- A value is of another type than the one expected. -/
  | invalidType (found expected : String)
  /-- An array that stands for a record lacks the member of the given position. -/
  | invalidLength (position : Nat) (expected : String)
  deriving DecidableEq

/-- A list of alternatives in words. -/
def alternatives (names : List String) : String :=
  match names.map fun name => s!"`{name}`" with
  | [] => "there are no variants"
  | [only] => only
  | [first, second] => s!"{first} or {second}"
  | quoted => "one of " ++ ", ".intercalate quoted

/-- The text of a problem, without the line and the column at which it is noticed. -/
def Problem.message : Problem → String
  | .notJson error => error.message
  | .unknownVariant name known => s!"unknown variant `{name}`, expected {alternatives known}"
  | .unknownField name known => s!"unknown field `{name}`, expected {alternatives known}"
  | .duplicateField name => s!"duplicate field `{name}`"
  | .missingField name => s!"missing field `{name}`"
  | .invalidType found expected => s!"invalid type: {found}, expected {expected}"
  | .invalidLength position expected => s!"invalid length {position}, expected {expected}"

/-- What is read from a schema document, unless there is a problem at some location. -/
abbrev Reading (α : Type) : Type := Except (Json.Located Problem) α

/-- A problem at a location. -/
def fail {α : Type} (location : Json.Location) (problem : Problem) : Reading α :=
  .error ⟨location, problem⟩

/-- What is read at a location, unless the text is no JSON there. -/
def ofJson {α : Type} (location : Json.Location) (result : Except Json.SyntaxError α) :
    Reading α :=
  result.mapError fun error => ⟨location, .notJson error⟩

/-- What a value is, in words, unless the text is no JSON there. -/
def describe : Json.Written → Except Json.SyntaxError String
  | .null => .ok "null"
  | .bool value => .ok s!"boolean `{value}`"
  | .number value => do
      match ← Json.inRange value with
      | .integer value => return "integer `" ++ String.ofList (Decimal.ofInt value) ++ "`"
      | .double value => return "floating point `" ++ String.ofList value.text ++ "`"
  | .string pieces => (Json.Piece.text pieces).map fun text => "string " ++ Text.shown text
  | .array _ _ => .ok "sequence"
  | .object _ _ => .ok "map"
  | .misspeltNull error => .error error
  | .broken error => .error error

/-- The problem that a value is not of the expected type. -/
def wrongType {α : Type} (location : Json.Location) (value : Json.Written) (expected : String) :
    Reading α := do
  let found ← ofJson location (describe value)
  fail location (.invalidType found expected)

end WireSchema.SchemaDocument

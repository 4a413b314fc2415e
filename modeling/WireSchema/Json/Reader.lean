import WireSchema.Json.Basic
import WireSchema.Json.Location
import WireSchema.Json.Written

/-! # Reading JSON

A text is one document and nothing else. Reading follows the text from left to right and reports the
first error with its location; arrays and objects may be nested to a given depth. A member is
entered once its colon has been read; an error in the place of a name has a step without a name. -/

namespace WireSchema.Json

/-! ## (1) Parts of documents -/

/-- What is read at a location, unless it is an error there. -/
def locate {α : Type} (location : Location) :
    Except SyntaxError α → Except (Located SyntaxError) α :=
  Except.mapError (Located.mk location)

/-- The error in an array that ends in a given way, if that is an error. -/
def arrayEnd : Ending → Except SyntaxError Unit
  | .closed => .ok ()
  | .cut => .error .endInArray
  | .cutAfterComma => .error .endInValue
  | .closedAfterComma => .error .trailingComma
  | .unseparated | .unnamed => .error .itemEndExpected

/-- The error in an object that ends in a given way, if that is an error. -/
def objectEnd : Ending → Except SyntaxError Unit
  | .closed => .ok ()
  | .cut => .error .endInObject
  | .cutAfterComma => .error .endInValue
  | .closedAfterComma => .error .trailingComma
  | .unseparated => .error .memberEndExpected
  | .unnamed => .error .nameExpected

/-- The number read, unless it is out of range. -/
def inRange : Option Number → Except SyntaxError Number
  | some value => .ok value
  | none => .error .numberOutOfRange

/-- The levels left inside an array or an object, if there are any. -/
def enter : Nat → Except SyntaxError Nat
  | 0 => .error .tooDeep
  | levels + 1 => .ok levels

/-- The error of a member that lacks its colon. -/
def colonBefore (written : Written) : Except SyntaxError Unit :=
  match written.missingColon? with
  | some error => .error error
  | none => .ok ()

/-! ## (2) Documents -/

mutual

/-- The document that a tree at a location spells, or the first error in it. -/
def readAt (levels : Nat) (location : Location) : Written → Except (Located SyntaxError) Json
  | .null => .ok .null
  | .bool value => .ok (.bool value)
  | .number value => (locate location (inRange value)).map .number
  | .string pieces => (locate location (Piece.text pieces)).map .string
  | .array items ending => do
      let inner ← locate location (enter levels)
      let values ← readItems inner location 0 items
      locate location (arrayEnd ending)
      return .array values
  | .object members ending => do
      let inner ← locate location (enter levels)
      let values ← readMembers inner location members []
      locate (location ++ [.unnamed]) (objectEnd ending)
      return .object values
  | .misspeltNull error => .error ⟨location, error⟩
  | .broken error => .error ⟨location, error⟩

/-- The documents that the items of an array spell, from a position on. -/
def readItems (levels : Nat) (location : Location) :
    Nat → List Written → Except (Located SyntaxError) (List Json)
  | _, [] => .ok []
  | position, item :: rest => do
      let value ← readAt levels (location ++ [.item position]) item
      let values ← readItems levels location (position + 1) rest
      return value :: values

/-- The members of an object, added to those before them. -/
def readMembers (levels : Nat) (location : Location) :
    List (List Piece × Written) → List (String × Json) →
      Except (Located SyntaxError) (List (String × Json))
  | [], before => .ok before
  | (pieces, written) :: rest, before => do
      let name ← locate (location ++ [.unnamed]) (Piece.text pieces)
      -- the member is not entered before its colon, so that this error is one of the object
      locate location (colonBefore written)
      let value ← readAt levels (location ++ [.member name]) written
      readMembers levels location rest (Members.insert before name value)

end

/-! ## (3) Texts -/

/-- The nesting depth that is read unless another one is asked for. -/
def defaultDepth : Nat := 127

/-- Read a text as one document nested at most `depth` deep. -/
def parseToDepth (depth : Nat) (text : String) : Except SyntaxError Json := do
  let (written, behind) := Written.ofText text.toList
  let document ← (readAt depth [] written).mapError Located.error
  if behind.isEmpty then return document else throw .trailingCharacters

/-- Read a text as one document. -/
def parse (text : String) : Except SyntaxError Json := parseToDepth defaultDepth text

end WireSchema.Json

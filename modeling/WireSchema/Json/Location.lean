/-! # Locations in JSON texts

Where in a document a reader stands: the names and positions entered, from the root on. -/

namespace WireSchema.Json

/-- A step into a document. -/
inductive Segment where
  /-- Into the member of that name. -/
  | member (name : String)
  /-- Into the item at that position. -/
  | item (position : Nat)
  /-- Into a member whose name could not be read. -/
  | unnamed
  deriving DecidableEq

/-- **A location**: the steps from the root, the first one first. -/
abbrev Location : Type := List Segment

namespace Location

/-- The text of one step; `isFirst` says that it starts a location. -/
def stepText (isFirst : Bool) : Segment → String
  | .member name => if isFirst then name else s!".{name}"
  | .item position => s!"[{position}]"
  | .unnamed => if isFirst then "?" else ".?"

/-- The text of a location; the root is a point. -/
def render : Location → String
  | [] => "."
  | first :: rest => rest.foldl (fun text step => text ++ stepText false step) (stepText true first)

end Location

/-- An error with the location at which it was noticed. -/
structure Located (ε : Type) where
  /-- Where the error was noticed. -/
  location : Location
  /-- What is wrong there. -/
  error : ε

end WireSchema.Json

import WireSchema.Json.Token

/-! # Written documents

The bracket structure of a JSON text as far as it can be followed: members may repeat, numbers may
be out of range, quoted texts need not decode, and every array and object says how its text ends.
What is wrong with a text is thereby a part of its tree, and each reader of the tree meets the first
error in the order of the text, decides on its own what it reads, and leaves the rest unread.

The tree is built by an automaton that takes one token at a time and keeps the open arrays and
objects, innermost first. -/

namespace WireSchema.Json

/-- How the text of an array or an object ends. -/
inductive Ending where
  /-- With its closing mark. -/
  | closed
  /-- The text stops before a comma or the closing mark. -/
  | cut
  /-- The text stops behind a comma. -/
  | cutAfterComma
  /-- The closing mark follows a comma. -/
  | closedAfterComma
  /-- Neither a comma nor the closing mark follows an entry. -/
  | unseparated
  /-- Something that is no quoted name stands where a member should start. -/
  | unnamed
  deriving DecidableEq

/-- **A written document**: the tree of a JSON text, well formed or not. -/
inductive Written where
  /-- The literal `null`. -/
  | null
  /-- A truth value. -/
  | bool (value : Bool)
  /-- A number, unless it is out of range. -/
  | number (value : Option Number)
  /-- A quoted text. -/
  | string (pieces : List Piece)
  /-- An array, with its items and its ending. -/
  | array (items : List Written) (ending : Ending)
  /-- An object, with its members as they are written and its ending. -/
  | object (members : List (List Piece × Written)) (ending : Ending)
  /-- A word that starts like `null` and is not; nothing behind it counts. -/
  | misspeltNull (error : SyntaxError)
  /-- Nothing that is a value, for the given reason; nothing behind it counts. -/
  | broken (error : SyntaxError)

namespace Written

/-- An array or an object whose text is still open. -/
inductive Frame where
  /-- An array, with its items so far, the last one first. -/
  | array (reversed : List Written)
  /-- An object that waits for the value of a name, with its members so far, the last one first. -/
  | object (reversed : List (List Piece × Written)) (name : List Piece)

/-- The tree of a text whose last value is `inner`, read inside the open frames. -/
def enclose : List Frame → Written → Written
  | [], inner => inner
  | .array reversed :: frames, inner => enclose frames (.array (inner :: reversed).reverse .cut)
  | .object reversed name :: frames, inner =>
      enclose frames (.object ((name, inner) :: reversed).reverse .cut)

/-- What is expected next. -/
inductive State where
  /-- A value, inside the open frames. -/
  | value (frames : List Frame)
  /-- The first item of an array or its closing bracket. -/
  | firstItem (frames : List Frame)
  /-- The next item of an array. -/
  | nextItem (reversed : List Written) (frames : List Frame)
  /-- The first name of an object or its closing brace. -/
  | firstName (frames : List Frame)
  /-- The next name of an object. -/
  | nextName (reversed : List (List Piece × Written)) (frames : List Frame)
  /-- The colon behind a name. -/
  | colon (reversed : List (List Piece × Written)) (name : List Piece) (frames : List Frame)
  /-- What follows a value that has been read. -/
  | after (read : Written) (frames : List Frame)

/-- The step from a token that should start a value: to the next state, or to the tree of a text
that goes no further. -/
def stepValue (frames : List Frame) : Token → State ⊕ Written
  | .openArray => .inl (.firstItem frames)
  | .openObject => .inl (.firstName frames)
  | .null => .inl (.after .null frames)
  | .bool value => .inl (.after (.bool value) frames)
  | .number value => .inl (.after (.number value) frames)
  | .string pieces => .inl (.after (.string pieces) frames)
  | .misspeltNull error => .inr (enclose frames (.misspeltNull error))
  | .fault error => .inr (enclose frames (.broken error))
  | .closeArray | .closeObject | .comma | .colon => .inr (enclose frames (.broken .valueExpected))

/-- The step of the automaton. -/
def step : State → Token → State ⊕ Written
  | .value frames, token => stepValue frames token
  | .firstItem frames, token =>
      if token = .closeArray then .inl (.after (.array [] .closed) frames)
      else stepValue (.array [] :: frames) token
  | .nextItem reversed frames, token =>
      if token = .closeArray then .inr (enclose frames (.array reversed.reverse .closedAfterComma))
      else stepValue (.array reversed :: frames) token
  | .firstName frames, token =>
      match token with
      | .closeObject => .inl (.after (.object [] .closed) frames)
      | .string name => .inl (.colon [] name frames)
      | _ => .inr (enclose frames (.object [] .unnamed))
  | .nextName reversed frames, token =>
      match token with
      | .string name => .inl (.colon reversed name frames)
      | .closeObject => .inr (enclose frames (.object reversed.reverse .closedAfterComma))
      | _ => .inr (enclose frames (.object reversed.reverse .unnamed))
  | .colon reversed name frames, token =>
      if token = .colon then .inl (.value (.object reversed name :: frames))
      else .inr (enclose (.object reversed name :: frames) (.broken .colonExpected))
  | .after read (.array reversed :: frames), token =>
      match token with
      | .comma => .inl (.nextItem (read :: reversed) frames)
      | .closeArray => .inl (.after (.array (read :: reversed).reverse .closed) frames)
      | _ => .inr (enclose frames (.array (read :: reversed).reverse .unseparated))
  | .after read (.object reversed name :: frames), token =>
      match token with
      | .comma => .inl (.nextName ((name, read) :: reversed) frames)
      | .closeObject => .inl (.after (.object ((name, read) :: reversed).reverse .closed) frames)
      | _ => .inr (enclose frames (.object ((name, read) :: reversed).reverse .unseparated))
  -- the document is complete; what follows it is not looked at here
  | .after read [], _ => .inr read

/-- The tree of a text that stops in the given state. -/
def stop : State → Written
  | .value frames => enclose frames (.broken .endInValue)
  | .firstItem frames => enclose frames (.array [] .cut)
  | .nextItem reversed frames => enclose frames (.array reversed.reverse .cutAfterComma)
  | .firstName frames => enclose frames (.object [] .cut)
  | .nextName reversed frames => enclose frames (.object reversed.reverse .cutAfterComma)
  | .colon reversed name frames =>
      enclose (.object reversed name :: frames) (.broken .endInObject)
  | .after read (.array reversed :: frames) =>
      enclose frames (.array (read :: reversed).reverse .cut)
  | .after read (.object reversed name :: frames) =>
      enclose frames (.object ((name, read) :: reversed).reverse .cut)
  | .after read [] => read

/-- Run the automaton; the second part holds the tokens behind the document. -/
def run : State → List Token → Written × List Token
  -- no frame is open, so the document ends before the next token
  | .after read [], tokens => (read, tokens)
  | state, [] => (stop state, [])
  | state, token :: tokens =>
      match step state token with
      | .inl next => run next tokens
      | .inr tree => (tree, [])

/-- The error of a member whose name is not followed by a colon; such a member has no value. -/
def missingColon? : Written → Option SyntaxError
  | .broken .colonExpected => some .colonExpected
  | .broken .endInObject => some .endInObject
  | _ => none

/-- The tree of the document at the start of a text, and the tokens behind it. -/
def ofText (text : List Char) : Written × List Token := run (.value []) (Token.scan text)

end Written

end WireSchema.Json

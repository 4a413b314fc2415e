/-! # Errors in JSON texts

What can be wrong with a text that should be a JSON document, by the place where it is noticed. -/

namespace WireSchema.Json

/-- What is wrong with a JSON text. -/
inductive SyntaxError where
  /-- The text ends where a value should stand. -/
  | endInValue
  /-- The text ends inside a literal. -/
  | endInLiteral
  /-- The text ends inside a number. -/
  | endInNumber
  /-- The text ends inside an array. -/
  | endInArray
  /-- The text ends inside an object. -/
  | endInObject
  /-- The text ends inside a quoted text. -/
  | endInString
  /-- No value starts here. -/
  | valueExpected
  /-- A word starts like a literal and goes on differently. -/
  | identExpected
  /-- No colon follows a name. -/
  | colonExpected
  /-- Neither a comma nor the closing bracket follows an item. -/
  | itemEndExpected
  /-- Neither a comma nor the closing brace follows a member. -/
  | memberEndExpected
  /-- A member does not start with a quoted name. -/
  | nameExpected
  /-- A closing bracket or brace follows a comma. -/
  | trailingComma
  /-- Something follows the document. -/
  | trailingCharacters
  /-- A number lacks a digit or has a leading zero. -/
  | invalidNumber
  /-- A number is too large for a double. -/
  | numberOutOfRange
  /-- A backslash starts no escape. -/
  | invalidEscape
  /-- A high surrogate is not followed by an escape. -/
  | surrogateCutShort
  /-- A surrogate does not belong to a pair. -/
  | loneSurrogate
  /-- A control character stands in a quoted text. -/
  | controlCharacter
  /-- The document is nested too deeply. -/
  | tooDeep
  deriving DecidableEq

/-- The text of an error, without the line and the column at which the reader stood: positions in
the text are not kept. -/
def SyntaxError.message : SyntaxError → String
  | .endInValue | .endInLiteral | .endInNumber => "EOF while parsing a value"
  | .endInArray => "EOF while parsing a list"
  | .endInObject => "EOF while parsing an object"
  | .endInString => "EOF while parsing a string"
  | .valueExpected => "expected value"
  | .identExpected => "expected ident"
  | .colonExpected => "expected `:`"
  | .itemEndExpected => "expected `,` or `]`"
  | .memberEndExpected => "expected `,` or `\x7d`"
  | .nameExpected => "key must be a string"
  | .trailingComma => "trailing comma"
  | .trailingCharacters => "trailing characters"
  | .invalidNumber => "invalid number"
  | .numberOutOfRange => "number out of range"
  | .invalidEscape => "invalid escape"
  | .surrogateCutShort => "unexpected end of hex escape"
  | .loneSurrogate => "lone leading surrogate in hex escape"
  | .controlCharacter => "control character (\\u0000-\\u001F) found while parsing a string"
  | .tooDeep => "recursion limit exceeded"

end WireSchema.Json

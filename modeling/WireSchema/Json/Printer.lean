import WireSchema.Json.Basic

/-! # Printing JSON

Two layouts of one document: compact, without any space, and indented by two spaces a level, where
an empty array or object stays on its line. Texts are escaped minimally: the quote, the backslash
and the control characters, of which five have a short form. -/

namespace WireSchema.Json

/-! ## (1) Texts -/

/-- A hexadecimal digit in lower case. -/
def hexDigit (n : Nat) : Char := Nat.digitChar n

/-- How one character of a text is written. -/
def escapeChar (c : Char) : List Char :=
  if c = '"' then ['\\', '"']
  else if c = '\\' then ['\\', '\\']
  else if c = '\n' then ['\\', 'n']
  else if c = '\r' then ['\\', 'r']
  else if c = '\t' then ['\\', 't']
  else if c.toNat = 0x08 then ['\\', 'b']
  else if c.toNat = 0x0C then ['\\', 'f']
  else if c.toNat < 0x20 then
    ['\\', 'u', '0', '0', hexDigit (c.toNat / 16), hexDigit (c.toNat % 16)]
  else [c]

/-- A text in quotes. -/
def quoted (text : String) : List Char := '"' :: text.toList.flatMap escapeChar ++ ['"']

/-- The text of `null`. -/
def nullText : List Char := ['n', 'u', 'l', 'l']

/-- The text of a truth value. -/
def boolText : Bool → List Char
  | true => ['t', 'r', 'u', 'e']
  | false => ['f', 'a', 'l', 's', 'e']

/-! ## (2) Compact layout -/

mutual

/-- The compact text of a document. -/
def compact : Json → List Char
  | .null => nullText
  | .bool value => boolText value
  | .number value => value.text
  | .string value => quoted value
  | .array [] => ['[', ']']
  | .array (first :: rest) => '[' :: compact first ++ compactItems rest
  | .object [] => ['{', '}']
  | .object ((name, value) :: rest) =>
      '{' :: quoted name ++ ':' :: compact value ++ compactMembers rest

/-- The compact text of the items after the first one, and of the closing bracket. -/
def compactItems : List Json → List Char
  | [] => [']']
  | item :: rest => ',' :: compact item ++ compactItems rest

/-- The compact text of the members after the first one, and of the closing brace. -/
def compactMembers : List (String × Json) → List Char
  | [] => ['}']
  | (name, value) :: rest => ',' :: quoted name ++ ':' :: compact value ++ compactMembers rest

end

/-- The compact text of a document as a string. -/
def render (document : Json) : String := String.ofList document.compact

/-! ## (3) Indented layout -/

/-- A line break followed by the indentation of a level. -/
def newline (level : Nat) : List Char := '\n' :: List.replicate (2 * level) ' '

mutual

/-- The indented text of a document that stands at the given level. -/
def indented (level : Nat) : Json → List Char
  | .null => nullText
  | .bool value => boolText value
  | .number value => value.text
  | .string value => quoted value
  | .array [] => ['[', ']']
  | .array (first :: rest) =>
      '[' :: newline (level + 1) ++ indented (level + 1) first ++ indentedItems level rest
  | .object [] => ['{', '}']
  | .object ((name, value) :: rest) =>
      '{' :: newline (level + 1) ++ quoted name ++ ':' :: ' ' :: indented (level + 1) value ++
        indentedMembers level rest

/-- The indented text of the items after the first one, and of the closing bracket. -/
def indentedItems (level : Nat) : List Json → List Char
  | [] => newline level ++ [']']
  | item :: rest =>
      ',' :: newline (level + 1) ++ indented (level + 1) item ++ indentedItems level rest

/-- The indented text of the members after the first one, and of the closing brace. -/
def indentedMembers (level : Nat) : List (String × Json) → List Char
  | [] => newline level ++ ['}']
  | (name, value) :: rest =>
      ',' :: newline (level + 1) ++ quoted name ++ ':' :: ' ' :: indented (level + 1) value ++
        indentedMembers level rest

end

/-- The indented text of a document as a string. -/
def renderIndented (document : Json) : String := String.ofList (document.indented 0)

end WireSchema.Json

import WireSchema.Json.Token
import WireSchema.Text.Blank

/-! # Tokens of filters

The text of a filter is cut into tokens from left to right. Every token says how many characters it
takes, so the scan either skips a character or looks at what starts there. Blanks, and comments from
`#` to the end of the line, separate tokens; a comment goes on behind a line that ends with an odd
number of backslashes. -/

namespace WireSchema.Filter

/-- The kinds of brackets. -/
inductive Bracket where
  /-- The brackets `(` and `)`. -/
  | round
  /-- The brackets `[` and `]`. -/
  | square
  /-- The brackets `{` and `}`. -/
  | curly
  deriving DecidableEq

/-- A token of a filter. -/
inductive Token where
  /-- A point that no name follows. -/
  | dot
  /-- A point with the name that follows it. -/
  | field (name : String)
  /-- A name. -/
  | name (text : String)
  /-- A name behind a dollar sign. -/
  | reference (name : String)
  /-- A number without sign. -/
  | number (literal : Number.Literal)
  /-- A quoted text. -/
  | text (value : String)
  /-- The mark `|`. -/
  | pipe
  /-- The mark `,`. -/
  | comma
  /-- The mark `:`. -/
  | colon
  /-- The mark `;`. -/
  | semicolon
  /-- The mark `-`. -/
  | minus
  /-- An opening bracket. -/
  | opening (bracket : Bracket)
  /-- A closing bracket. -/
  | closing (bracket : Bracket)
  deriving DecidableEq

namespace Token

/-- Whether a character may start a name. -/
def startsName (c : Char) : Bool := c.isAlpha || c == '_'

/-- Whether a character may stand inside a name. -/
def continuesName (c : Char) : Bool := c.isAlphanum || c == '_'

/-- The name at the start of a text, if there is one. -/
def leadingName? : List Char → Option (List Char)
  | c :: rest => if startsName c then some (c :: rest.takeWhile continuesName) else none
  | [] => none

/-- The characters of a quoted text from behind its opening quote, and how many characters it takes
with its closing quote. Any character may stand for itself but the quote and the backslash; a `\u`
escape names a character and no half of a pair. -/
def quoted? : List Char → Option (List Char × Nat)
  | [] => none
  | '"' :: _ => some ([], 1)
  | '\\' :: 'u' :: a :: b :: c :: d :: rest => do
      let value ← Json.Piece.hexFour? a b c d
      if value.isValidChar then
        let (letters, count) ← quoted? rest
        return (Char.ofNat value :: letters, count + 6)
      else none
  | '\\' :: letter :: rest => do
      let named ← Json.Piece.shortEscape? letter
      let (letters, count) ← quoted? rest
      return (named :: letters, count + 2)
  | c :: rest =>
      if c = '\\' then none
      else do
        let (letters, count) ← quoted? rest
        return (c :: letters, count + 1)

/-- The number of characters of a comment behind its mark; `isOdd` says that an odd number of
backslashes stands before. -/
def commentLength (isOdd : Bool) : List Char → Nat
  | [] => 0
  | '\r' :: '\n' :: rest => if isOdd then commentLength false rest + 2 else 1
  | '\n' :: rest => if isOdd then commentLength false rest + 1 else 0
  | c :: rest => commentLength (c == '\\' && !isOdd) rest + 1

/-- Whether a character is part of an operator; a run of them is one operator. -/
def isOperator (c : Char) : Bool :=
  c == '|' || c == '=' || c == '!' || c == '<' || c == '>' || c == '+' || c == '-' || c == '*' ||
    c == '/' || c == '%'

/-- A token for an operator of one character, unless another one follows. -/
def single? (token : Token) (rest : List Char) : Option (Option Token × Nat) :=
  if rest.head?.any isOperator then none else some (some token, 0)

/-- The number literal at the start of a text and what follows it; it may start with any number of
zeros. -/
def numberLiteral (text : List Char) : Except Json.SyntaxError (Number.Literal × List Char) := do
  let (whole, afterWhole) := Json.Token.splitDigits text
  let (fraction, afterFraction) ← Json.Token.fractionPart afterWhole false
  let (exponent, rest) ← Json.Token.exponentPart afterFraction false
  return (⟨false, whole, fraction, exponent⟩, rest)

/-- What starts with a given character: a token, or a separator, and how many of the following
characters belong to it. -/
def lexeme? (first : Char) (rest : List Char) : Option (Option Token × Nat) :=
  match first with
  | '#' => some (none, commentLength false rest)
  | '|' => single? .pipe rest
  | ',' => some (some .comma, 0)
  | ':' => some (some .colon, 0)
  | ';' => some (some .semicolon, 0)
  | '-' => single? .minus rest
  | '(' => some (some (.opening .round), 0)
  | ')' => some (some (.closing .round), 0)
  | '[' => some (some (.opening .square), 0)
  | ']' => some (some (.closing .square), 0)
  | '{' => some (some (.opening .curly), 0)
  | '}' => some (some (.closing .curly), 0)
  | '.' =>
      match leadingName? rest with
      | some letters => some (some (.field (String.ofList letters)), letters.length)
      | none => if rest.head? = some '.' then none else some (some .dot, 0)
  | '$' => (leadingName? rest).map fun letters =>
      (some (.reference (String.ofList letters)), letters.length)
  | '"' => (quoted? rest).map fun (letters, count) =>
      (some (.text (String.ofList letters)), count)
  | _ =>
      if Text.isBlank first then some (none, 0)
      else if first.isDigit then do
        let (literal, behind) ← (numberLiteral (first :: rest)).toOption
        return (some (.number literal), rest.length - behind.length)
      else (leadingName? (first :: rest)).map fun letters =>
        (some (.name (String.ofList letters)), letters.length - 1)

/-- The tokens of a text behind a number of characters that belong to the token before. -/
def scanFrom : Nat → List Char → Option (List Token)
  | _, [] => some []
  | skipped + 1, _ :: rest => scanFrom skipped rest
  | 0, first :: rest => do
      let (token, more) ← lexeme? first rest
      return token.toList ++ (← scanFrom more rest)

/-- The tokens of a text, unless some character starts none. -/
def scan (text : List Char) : Option (List Token) := scanFrom 0 text

end Token

end WireSchema.Filter

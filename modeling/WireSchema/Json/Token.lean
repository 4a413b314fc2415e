import WireSchema.Json.Number
import WireSchema.Json.QuotedText

/-! # Tokens of JSON texts

A JSON text is first cut into tokens: marks, quoted texts, and **runs**, the longest stretches of
characters that are neither blank nor a mark nor a quote. A run starts with a literal or a number or
is a fault; what is left of it behind a literal or a number is a fault of its own, since no value
may follow there. -/

namespace WireSchema.Json

/-- A token of a JSON text. -/
inductive Token where
  /-- The mark `[`. -/
  | openArray
  /-- The mark `]`. -/
  | closeArray
  /-- The mark `{`. -/
  | openObject
  /-- The mark `}`. -/
  | closeObject
  /-- The mark `,`. -/
  | comma
  /-- The mark `:`. -/
  | colon
  /-- The literal `null`. -/
  | null
  /-- The literal `true` or `false`. -/
  | bool (value : Bool)
  /-- A number, unless it is out of range. -/
  | number (value : Option Number)
  /-- A quoted text. -/
  | string (pieces : List Piece)
  /-- A word that starts like `null` and is not, for the given reason. -/
  | misspeltNull (error : SyntaxError)
  /-- Other characters that are no value, for the given reason. -/
  | fault (error : SyntaxError)
  deriving DecidableEq

namespace Token

/-! ## (1) Numbers -/

/-- The digits at the start of a text and what follows them. -/
def splitDigits (text : List Char) : List Char × List Char := text.span Char.isDigit

/-- The error for a missing digit: a number that the end of the text cuts off may yet have been
meant to go on. -/
def missingDigit (rest : List Char) (isLast : Bool) : SyntaxError :=
  if rest.isEmpty && isLast then .endInNumber else .invalidNumber

/-- The digits before the point, which start with a zero only when they are one. -/
def wholePart (text : List Char) (isLast : Bool) : Except SyntaxError (List Char × List Char) :=
  match splitDigits text with
  | ([], rest) => .error (missingDigit rest isLast)
  -- a zero is followed by no further digit
  | ('0' :: _ :: _, _) => .error .invalidNumber
  | (digits, rest) => .ok (digits, rest)

/-- The digits behind a point, if there is a point. -/
def fractionPart (text : List Char) (isLast : Bool) :
    Except SyntaxError (Option (List Char) × List Char) :=
  match text with
  | '.' :: behind =>
      match splitDigits behind with
      | ([], rest) => .error (missingDigit rest isLast)
      | (digits, rest) => .ok (some digits, rest)
  | _ => .ok (none, text)

/-- The sign of an exponent and what follows it; true is minus. -/
def exponentSign : List Char → Bool × List Char
  | '-' :: rest => (true, rest)
  | '+' :: rest => (false, rest)
  | rest => (false, rest)

/-- The sign and the digits of an exponent, if there is an exponent mark. -/
def exponentPart (text : List Char) (isLast : Bool) :
    Except SyntaxError (Option (Bool × List Char) × List Char) :=
  let digitsBehind (behind : List Char) :=
    let (isNegative, signed) := exponentSign behind
    match splitDigits signed with
    | ([], rest) => .error (missingDigit rest isLast)
    | (digits, rest) => .ok (some (isNegative, digits), rest)
  match text with
  | 'e' :: behind => digitsBehind behind
  | 'E' :: behind => digitsBehind behind
  | _ => .ok (none, text)

/-- The number literal at the start of a run and what follows it. -/
def numberLiteral (run : List Char) (isLast : Bool) :
    Except SyntaxError (Number.Literal × List Char) := do
  let (isNegative, unsigned) :=
    match run with
    | '-' :: rest => (true, rest)
    | rest => (false, rest)
  let (whole, afterWhole) ← wholePart unsigned isLast
  let (fraction, afterFraction) ← fractionPart afterWhole isLast
  let (exponent, rest) ← exponentPart afterFraction isLast
  return (⟨isNegative, whole, fraction, exponent⟩, rest)

/-! ## (2) Runs -/

/-- What follows the expected characters, or why they are not there. -/
def expectChars : List Char → List Char → Bool → Except SyntaxError (List Char)
  | [], rest, _ => .ok rest
  | _ :: _, [], isLast => .error (if isLast then .endInLiteral else .identExpected)
  | expected :: more, c :: rest, isLast =>
      if c = expected then expectChars more rest isLast else .error .identExpected

/-- A token followed by the fault that the rest of its run is, if there is a rest. -/
def withRest (token : Token) : List Char → List Token
  | [] => [token]
  | _ :: _ => [token, .fault .valueExpected]

/-- The tokens of a word whose first character has been seen: a literal, or what a misspelt literal
is. -/
def literal (token : Token) (misspelt : SyntaxError → Token) (expected rest : List Char)
    (isLast : Bool) : List Token :=
  match expectChars expected rest isLast with
  | .ok behind => withRest token behind
  | .error error => [misspelt error]

/-- The tokens of a run; `isLast` says that the text ends behind it. -/
def ofRun (run : List Char) (isLast : Bool) : List Token :=
  match run with
  | [] => []
  | 'n' :: rest => literal .null .misspeltNull ['u', 'l', 'l'] rest isLast
  | 't' :: rest => literal (.bool true) .fault ['r', 'u', 'e'] rest isLast
  | 'f' :: rest => literal (.bool false) .fault ['a', 'l', 's', 'e'] rest isLast
  | first :: _ =>
      -- any other first character starts no value
      if first = '-' ∨ first.isDigit then
        match numberLiteral run isLast with
        | .ok (spelled, behind) => withRest (.number spelled.number?) behind
        | .error error => [.fault error]
      else [.fault .valueExpected]

/-! ## (3) Texts -/

/-- What a character is outside of quoted texts. -/
inductive CharClass where
  /-- A blank between tokens. -/
  | blank
  /-- A mark, which is a token by itself. -/
  | mark (token : Token)
  /-- A quote, which opens a quoted text. -/
  | quote
  /-- A character of a run. -/
  | plain

/-- The class of a character; blanks are the space, the tab, the line feed and the carriage
return. -/
def classify (c : Char) : CharClass :=
  match c with
  | ' ' => .blank
  | '\t' => .blank
  | '\n' => .blank
  | '\r' => .blank
  | '[' => .mark .openArray
  | ']' => .mark .closeArray
  | '{' => .mark .openObject
  | '}' => .mark .closeObject
  | ',' => .mark .comma
  | ':' => .mark .colon
  | '"' => .quote
  | _ => .plain

/-- Where in a text the scan stands. -/
inductive Mode where
  /-- Behind the characters of a run, the last one first; an empty run is no run. -/
  | run (reversed : List Char)
  /-- In a quoted text; `isEscaped` says that the next character follows a backslash. -/
  | quoted (isEscaped : Bool)

/-- The tokens of a text from a given mode on. -/
def scanFrom : Mode → List Char → List Token
  | .run reversed, [] => ofRun reversed.reverse true
  -- the quoted text has become a token at its quote, and ends with the text
  | .quoted _, [] => []
  | .quoted true, _ :: rest => scanFrom (.quoted false) rest
  | .quoted false, c :: rest =>
      if c = '"' then scanFrom (.run []) rest else scanFrom (.quoted (c == '\\')) rest
  | .run reversed, c :: rest =>
      match classify c with
      | .plain => scanFrom (.run (c :: reversed)) rest
      | .blank => ofRun reversed.reverse false ++ scanFrom (.run []) rest
      | .mark token => ofRun reversed.reverse false ++ token :: scanFrom (.run []) rest
      | .quote =>
          ofRun reversed.reverse false ++ .string (Piece.scan rest) :: scanFrom (.quoted false) rest

/-- The tokens of a text. -/
def scan (text : List Char) : List Token := scanFrom (.run []) text

end Token

end WireSchema.Json

import WireSchema.Arithmetic
import WireSchema.Json.SyntaxError

/-! # Quoted texts

The inside of a quoted text as a sequence of **pieces**: characters, UTF-16 units that were written
as `\u` escapes, and the first thing that is wrong, if any. A quoted text can then be read in two
ways. `decode` puts the characters together and insists that surrogates stand in pairs; `skipError?`
only asks whether the end can be found. -/

namespace WireSchema.Json

/-- A piece of a quoted text. -/
inductive Piece where
  /-- A character, plain or written as a short escape. -/
  | char (value : Char)
  /-- A UTF-16 unit written as four hexadecimal digits. -/
  | unit (value : Nat)
  /-- The text ends here. -/
  | cut
  /-- A control character stands here. -/
  | control
  /-- A backslash is followed by a letter that names no escape. -/
  | badLetter
  /-- A `\u` is not followed by four hexadecimal digits. -/
  | badDigits
  deriving DecidableEq

namespace Piece

/-- The value of a hexadecimal digit in either case. -/
def hexValue? (c : Char) : Option Nat :=
  if '0' ≤ c ∧ c ≤ '9' then some (c.toNat - '0'.toNat)
  else if 'a' ≤ c ∧ c ≤ 'f' then some (c.toNat - 'a'.toNat + 10)
  else if 'A' ≤ c ∧ c ≤ 'F' then some (c.toNat - 'A'.toNat + 10)
  else none

/-- The value of four hexadecimal digits. -/
def hexFour? (a b c d : Char) : Option Nat := do
  let first ← hexValue? a
  let second ← hexValue? b
  let third ← hexValue? c
  let fourth ← hexValue? d
  return ((first * 16 + second) * 16 + third) * 16 + fourth

/-- The character that a short escape stands for. -/
def shortEscape? : Char → Option Char
  | '"' => some '"'
  | '\\' => some '\\'
  | '/' => some '/'
  | 'b' => some '\x08'
  | 'f' => some '\x0c'
  | 'n' => some '\n'
  | 'r' => some '\r'
  | 't' => some '\t'
  | _ => none

/-- The number of bytes of characters in UTF-8. -/
def byteCount (text : List Char) : Nat := (text.map Char.utf8Size).sum

/-- The pieces of a quoted text, from behind its opening quote up to its closing quote. Fewer than
four bytes behind a `\u` end the text there, whatever they are. -/
def scan : List Char → List Piece
  | [] => [.cut]
  | '"' :: _ => []
  | ['\\'] => [.cut]
  | '\\' :: 'u' :: a :: b :: c :: d :: rest =>
      match hexFour? a b c d with
      | some value => .unit value :: scan rest
      | none => [.badDigits]
  | '\\' :: 'u' :: rest => if byteCount rest < 4 then [.cut] else [.badDigits]
  | '\\' :: letter :: rest =>
      match shortEscape? letter with
      | some c => .char c :: scan rest
      | none => [.badLetter]
  | c :: rest => if c.toNat < 0x20 then [.control] else .char c :: scan rest

/-- The first error that keeps the end of a quoted text from being found. -/
def skipError? : List Piece → Option SyntaxError
  | [] => none
  | .cut :: _ => some .endInString
  | .control :: _ => some .controlCharacter
  | .badLetter :: _ | .badDigits :: _ => some .invalidEscape
  | .char _ :: rest | .unit _ :: rest => skipError? rest

/-- Whether a UTF-16 unit is the first half of a pair. -/
def isHighSurrogate (value : Nat) : Bool := 0xD800 ≤ value && value ≤ 0xDBFF

/-- Whether a UTF-16 unit is the second half of a pair. -/
def isLowSurrogate (value : Nat) : Bool := 0xDC00 ≤ value && value ≤ 0xDFFF

/-- The character of a surrogate pair. -/
def pairChar (high low : Nat) : Char :=
  Char.ofNat (0x10000 + (high - 0xD800) * 0x400 + (low - 0xDC00))

/-- The characters of a quoted text, or the first error in it. -/
def decode : List Piece → Except SyntaxError (List Char)
  | [] => .ok []
  | .cut :: _ => .error .endInString
  | .control :: _ => .error .controlCharacter
  | .badLetter :: _ => .error .invalidEscape
  | .badDigits :: _ => .error .invalidEscape
  | .char c :: rest => (decode rest).map (c :: ·)
  | .unit value :: rest =>
      if isLowSurrogate value then .error .loneSurrogate
      else if isHighSurrogate value then
        match rest with
        | .unit low :: behind =>
            if isLowSurrogate low then (decode behind).map (pairChar value low :: ·)
            else .error .loneSurrogate
        | .cut :: _ => .error .endInString
        | .badDigits :: _ => .error .invalidEscape
        | _ => .error .surrogateCutShort
      else (decode rest).map (Char.ofNat value :: ·)

/-- The text that the pieces spell. -/
def text (pieces : List Piece) : Except SyntaxError String := (decode pieces).map String.ofList

end Piece

end WireSchema.Json

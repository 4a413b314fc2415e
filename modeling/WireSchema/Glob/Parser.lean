import WireSchema.Glob.Basic
import WireSchema.Splitting

/-! # Reading globs

The text of a glob is checked as a whole and then read part by part. Every token says how many
characters it takes, so the scan either skips a character or looks at what starts there. -/

namespace WireSchema.Glob

/-- What is wrong with a glob. -/
inductive Fault where
  /-- More than two stars stand together. -/
  | tooManyStars
  /-- Two stars are not a part of their own. -/
  | starsInPart
  /-- A bracket opens no set of characters. -/
  | invalidSet
  deriving DecidableEq

/-- What a fault says. -/
def Fault.text : Fault → String
  | .tooManyStars => "wildcards are either regular `*` or recursive `**`"
  | .starsInPart => "recursive wildcards must form a single path component"
  | .invalidSet => "invalid range pattern"

/-- A fault with its position in the text. -/
structure Problem where
  /-- The position, in characters. -/
  position : Nat
  /-- What is wrong there. -/
  fault : Fault
  deriving DecidableEq

/-- What a problem says. -/
def Problem.message (problem : Problem) : String :=
  s!"Pattern syntax error near position {problem.position}: {problem.fault.text}"

/-- The ranges that the inside of a bracket lists: single characters, and pairs joined by `-`. -/
def ranges : List Char → List (Char × Char)
  | low :: '-' :: high :: rest => (low, high) :: ranges rest
  | c :: rest => (c, c) :: ranges rest
  | [] => []

/-- The inside of a bracket, from its first character, which may be a closing bracket, up to the
next closing bracket. -/
def bracketInside? : List Char → Option (List Char)
  | [] => none
  | first :: rest => if rest.contains ']' then some (first :: rest.takeWhile (· != ']')) else none

/-- The token of an opening bracket, given what follows it, and the number of characters that belong
to it. -/
def set? : List Char → Option (Token × Nat)
  | '!' :: rest => (bracketInside? rest).map fun inside =>
      (.outside (ranges inside), inside.length + 2)
  -- without a mark the bracket lists what is allowed
  | rest => (bracketInside? rest).map fun inside => (.within (ranges inside), inside.length + 1)

/-- The token of a star, given what follows it; `startsPart` says that it starts a part. -/
def stars (position : Nat) (startsPart : Bool) : List Char → Except Problem (Token × Nat)
  | '*' :: '*' :: _ => .error ⟨position + 2, .tooManyStars⟩
  | '*' :: rest =>
      if !startsPart then .error ⟨position - 1, .starsInPart⟩
      else
        match rest with
        -- two stars take the slash behind them along
        | [] => .ok (.many, 1)
        | '/' :: _ => .ok (.many, 2)
        | _ => .error ⟨position + 2, .starsInPart⟩
  | _ => .ok (.many, 0)

/-- The token that starts with a given character, and how many of the following characters belong to
it. -/
def lexeme (position : Nat) (startsPart : Bool) (first : Char) (rest : List Char) :
    Except Problem (Token × Nat) :=
  match first with
  | '?' => .ok (.any, 0)
  | '*' => stars position startsPart rest
  | '[' =>
      match set? rest with
      | some token => .ok token
      | none => .error ⟨position, .invalidSet⟩
  | _ => .ok (.char first, 0)

/-- The tokens of a text from a position on, behind a number of characters that belong to the token
before. -/
def scanFrom : Nat → Nat → Bool → List Char → Except Problem (List Token)
  | _, _, _, [] => .ok []
  | skipped + 1, position, _, c :: rest => scanFrom skipped (position + 1) (c == '/') rest
  | 0, position, startsPart, c :: rest => do
      let (token, more) ← lexeme position startsPart c rest
      let tokens ← scanFrom more (position + 1) (c == '/') rest
      return token :: tokens

/-- The tokens of a text. -/
def scan (text : List Char) : Except Problem (List Token) := scanFrom 0 0 true text

/-- The part that a text spells. -/
def readPart (text : List Char) : Except Problem Part :=
  if text = ['*', '*'] then .ok .below else (scan text).map .name

/-- The texts of the parts; a slash at the end starts no further part. -/
def partTexts (text : List Char) : List (List Char) :=
  let texts := splitWhere (· == '/') text
  -- the last text is empty behind a slash and for the empty path
  if texts.getLast? = some [] then texts.dropLast else texts

/-- Read a glob. -/
def parse (text : String) : Except Problem Glob := do
  -- the first fault is that of the whole text, with its position there
  let _ ← scan text.toList
  let isAbsolute := text.toList.head? == some '/'
  let parts ← (partTexts (if isAbsolute then text.toList.tail else text.toList)).mapM readPart
  return ⟨isAbsolute, parts, text.toList.getLast? == some '/'⟩

/-- Whether a path contains a character that makes it a glob. -/
def isGlob (path : String) : Bool := path.toList.any fun c => c ∈ ['*', '?', '[', '\x7b']

end WireSchema.Glob

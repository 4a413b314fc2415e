import WireSchema.Json.Basic
import WireSchema.Json.QuotedText

/-! # The texts of documents

Which texts spell a document, said without reading them: any blanks may stand between tokens, any
character of a quoted text may be escaped, and a number may be written by any literal that denotes
it. Members stand as they are written, so that names may repeat. -/

namespace WireSchema.Json

/-! ## (1) Blanks -/

/-- Nothing but spaces, tabs, line feeds and carriage returns. -/
def IsBlank (text : List Char) : Prop := ∀ c ∈ text, c = ' ' ∨ c = '\t' ∨ c = '\n' ∨ c = '\r'

/-- A text with blanks around it. -/
def Padded (isText : List Char → Prop) (text : List Char) : Prop :=
  ∃ before inside behind, IsBlank before ∧ isText inside ∧ IsBlank behind ∧
    text = before ++ (inside ++ behind)

/-- A text without blanks around it is padded by none. -/
theorem padded_self {isText : List Char → Prop} {text : List Char} (inside : isText text) :
    Padded isText text :=
  ⟨[], text, [], nofun, inside, nofun, (List.append_nil text).symm⟩

/-! ## (2) Numbers -/

/-- One digit or more. -/
def AreDigits (text : List Char) : Prop := text ≠ [] ∧ ∀ c ∈ text, c.isDigit = true

/-- The part of a number before the point: digits, which do not start with a zero unless that is
all. -/
def IsWhole (text : List Char) : Prop := AreDigits text ∧ ∀ rest, text = '0' :: rest → rest = []

/-- The part of a number behind the point, with the point. -/
def FractionHasText : Option (List Char) → List Char → Prop
  | none, text => text = []
  | some digits, text => AreDigits digits ∧ text = '.' :: digits

/-- The sign of an exponent; true is minus, and plus may be left out. -/
def SignHasText (isNegative : Bool) (text : List Char) : Prop :=
  if isNegative then text = ['-'] else text = [] ∨ text = ['+']

/-- The exponent of a number with its mark. -/
def ExponentHasText : Option (Bool × List Char) → List Char → Prop
  | none, text => text = []
  | some (isNegative, digits), text =>
      AreDigits digits ∧ ∃ mark sign, (mark = 'e' ∨ mark = 'E') ∧ SignHasText isNegative sign ∧
        text = mark :: (sign ++ digits)

/-- The text of a number literal. -/
def LiteralHasText (literal : Number.Literal) (text : List Char) : Prop :=
  IsWhole literal.whole ∧ ∃ fraction exponent, FractionHasText literal.fraction fraction ∧
    ExponentHasText literal.exponent exponent ∧
    text = (if literal.isNegative then ['-'] else []) ++ (literal.whole ++ (fraction ++ exponent))

/-! ## (3) Quoted texts -/

/-- **A character in a quoted text**: as it is, or behind a backslash. -/
inductive CharHasText : Char → List Char → Prop
  /-- A character that is no control character stands for itself, unless it is a quote or a
  backslash. -/
  | plain {c : Char} (visible : 0x20 ≤ c.toNat) (noQuote : c ≠ '"') (noBackslash : c ≠ '\\') :
      CharHasText c [c]
  /-- A letter behind a backslash stands for a character. -/
  | short {c letter : Char} (named : Piece.shortEscape? letter = some c) :
      CharHasText c ['\\', letter]
  /-- Four hexadecimal digits stand for a character. -/
  | unit {first second third fourth : Char} {value : Nat}
      (digits : Piece.hexFour? first second third fourth = some value)
      (notHigh : Piece.isHighSurrogate value = false)
      (notLow : Piece.isLowSurrogate value = false) :
      CharHasText (Char.ofNat value) ['\\', 'u', first, second, third, fourth]
  /-- Twice four hexadecimal digits stand for a character as a pair of surrogates. -/
  | pair {first second third fourth first' second' third' fourth' : Char} {high low : Nat}
      (highDigits : Piece.hexFour? first second third fourth = some high)
      (isHigh : Piece.isHighSurrogate high = true)
      (lowDigits : Piece.hexFour? first' second' third' fourth' = some low)
      (isLow : Piece.isLowSurrogate low = true) :
      CharHasText (Piece.pairChar high low)
        ['\\', 'u', first, second, third, fourth, '\\', 'u', first', second', third', fourth']

/-- Characters one after the other in a quoted text. -/
def CharsHaveText : List Char → List Char → Prop
  | [], text => text = []
  | c :: rest, text =>
      ∃ here behind, CharHasText c here ∧ CharsHaveText rest behind ∧ text = here ++ behind

/-- A quoted text. -/
def StringHasText (value : String) (text : List Char) : Prop :=
  ∃ inside, CharsHaveText value.toList inside ∧ text = '"' :: (inside ++ ['"'])

/-- A character that may stand for itself. -/
def IsPrintable (c : Char) : Prop := 0x20 ≤ c.toNat ∧ c ≠ '"' ∧ c ≠ '\\'

/-- A text of which all characters may stand for themselves is quoted as it is. -/
theorem stringHasText_self {value : String} (printable : ∀ c ∈ value.toList, IsPrintable c) :
    StringHasText value ('"' :: (value.toList ++ ['"'])) := by
  have spelled : ∀ text : List Char, (∀ c ∈ text, IsPrintable c) → CharsHaveText text text := by
    intro text printable
    induction text with
    | nil => exact rfl
    | cons c rest induction =>
        rw [List.forall_mem_cons] at printable
        obtain ⟨visible, noQuote, noBackslash⟩ := printable.1
        exact ⟨[c], rest, .plain visible noQuote noBackslash, induction printable.2, rfl⟩
  exact ⟨value.toList, spelled _ printable, rfl⟩

/-! ## (4) Documents -/

mutual

/-- **A text of a document**. -/
def HasText : Json → List Char → Prop
  | .null, text => text = ['n', 'u', 'l', 'l']
  | .bool true, text => text = ['t', 'r', 'u', 'e']
  | .bool false, text => text = ['f', 'a', 'l', 's', 'e']
  | .number value, text => ∃ literal, LiteralHasText literal text ∧ literal.number? = some value
  | .string value, text => StringHasText value text
  | .array items, text => ∃ inside, ItemsHaveText items inside ∧ text = '[' :: (inside ++ [']'])
  | .object members, text =>
      ∃ inside, MembersHaveText members inside ∧ text = '{' :: (inside ++ ['}'])

/-- A text of all items of an array. -/
def ItemsHaveText : List Json → List Char → Prop
  | [], text => IsBlank text
  | item :: rest, text =>
      ∃ here behind, Padded item.HasText here ∧ MoreItemsHaveText rest behind ∧
        text = here ++ behind

/-- A text of the items behind the first ones, each behind a comma. -/
def MoreItemsHaveText : List Json → List Char → Prop
  | [], text => text = []
  | item :: rest, text =>
      ∃ here behind, Padded item.HasText here ∧ MoreItemsHaveText rest behind ∧
        text = ',' :: (here ++ behind)

/-- A text of all members of an object. -/
def MembersHaveText : List (String × Json) → List Char → Prop
  | [], text => IsBlank text
  | (name, value) :: rest, text =>
      ∃ before here behind, Padded (StringHasText name) before ∧ Padded value.HasText here ∧
        MoreMembersHaveText rest behind ∧ text = before ++ ':' :: (here ++ behind)

/-- A text of the members behind the first ones, each behind a comma. -/
def MoreMembersHaveText : List (String × Json) → List Char → Prop
  | [], text => text = []
  | (name, value) :: rest, text =>
      ∃ before here behind, Padded (StringHasText name) before ∧ Padded value.HasText here ∧
        MoreMembersHaveText rest behind ∧ text = ',' :: (before ++ ':' :: (here ++ behind))

end

end WireSchema.Json

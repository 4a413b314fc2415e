import WireSchema.Binary64.Literal
import WireSchema.Binary64.Shortest

/-! # JSON numbers

A number is kept as it was written: an integer that fits into 64 bits, with or without sign, stays
an integer; every other literal is the double it denotes. -/

namespace WireSchema

/-- A JSON number. -/
inductive Number where
  /-- An integer from `-2⁶³` up to `2⁶⁴ - 1`. -/
  | integer (value : Int)
  /-- A finite double. -/
  | double (value : Binary64)
  deriving DecidableEq

namespace Number

/-- Whether two numbers compare equal: an integer never equals a double, and the two zeros among the
doubles are equal. -/
def same : Number → Number → Bool
  | .integer left, .integer right => left == right
  | .double left, .double right => left.sameNumber right
  | _, _ => false

/-- The text of a number. -/
def text : Number → List Char
  | .integer value => Decimal.ofInt value
  | .double value => value.text

/-- **A number literal**, split at its point and its exponent mark. -/
structure Literal where
  /-- Whether it starts with a minus sign. -/
  isNegative : Bool
  /-- The digits before the point. -/
  whole : List Char
  /-- The digits behind the point, if there is one. -/
  fraction : Option (List Char)
  /-- The sign and the digits of the exponent, if there is one; true is minus. -/
  exponent : Option (Bool × List Char)
  deriving DecidableEq

namespace Literal

/-- The power of ten that a literal names. -/
def power (literal : Literal) : Int :=
  match literal.exponent with
  | none => 0
  | some (isNegative, digits) =>
      if isNegative then -(Decimal.value digits : Int) else Decimal.value digits

/-- The integer that a literal without point and exponent stays, if it fits into 64 bits; minus zero
is no integer. -/
def integer? (literal : Literal) : Option Int :=
  match literal.fraction, literal.exponent with
  | none, none =>
      let magnitude := Decimal.value literal.whole
      if literal.isNegative then
        if 0 < magnitude ∧ magnitude ≤ 2 ^ 63 then some (-(magnitude : Int)) else none
      else if magnitude < 2 ^ 64 then some magnitude
      else none
  | _, _ => none

/-- The number that a literal denotes; none when it is too large for a double. -/
def number? (literal : Literal) : Option Number :=
  match literal.integer? with
  | some value => some (.integer value)
  | none =>
      (Binary64.ofLiteral? literal.isNegative literal.whole (literal.fraction.getD [])
        literal.power).map .double

end Literal

end Number

end WireSchema

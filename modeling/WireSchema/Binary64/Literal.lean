import WireSchema.Binary64.Basic

/-! # Decimal literals as doubles

A decimal literal is read with one 64-bit significand and one power of ten. The significand takes
digits while it stays below `2⁶⁴`; later digits before the point only raise the power of ten, later
digits after it are dropped. The double nearest to the significand is then multiplied, or divided,
by the double nearest to the power of ten, each step with its own rounding; below `10⁻³⁰⁸` the
division is done in steps of `10³⁰⁸`. -/

namespace WireSchema.Binary64

/-- The least number that no significand reaches. -/
def significandBound : Nat := 2 ^ 64

/-- Append digits to a significand while it stays below the bound; the second part holds the digits
that were not taken. -/
def takeDigits : Nat → List Char → Nat × List Char
  | taken, [] => (taken, [])
  | taken, digit :: rest =>
      let longer := 10 * taken + (digit.toNat - '0'.toNat)
      if longer < significandBound then takeDigits longer rest else (taken, digit :: rest)

/-- The largest power of ten that is a finite double. -/
def maxTenExponent : Nat := 308

/-- The rank of the double nearest to a power of ten. -/
def rankOfTenPow (exponent : Nat) : Nat := rankOfNat (10 ^ exponent)

/-- Divide a magnitude by a power of ten, in steps of at most `10³⁰⁸`. -/
def divideByTenPow (rank exponent : Nat) : Nat :=
  if exponent ≤ maxTenExponent then quotient rank (rankOfTenPow exponent)
  else if rank = 0 then 0
  else divideByTenPow (quotient rank (rankOfTenPow maxTenExponent)) (exponent - maxTenExponent)
termination_by exponent
decreasing_by simp only [maxTenExponent] at *; omega

/-- The rank of a significand times a power of ten; it is at least `infinityRank` when the product
is too large. -/
def rankOfScaled (significand : Nat) : Int → Nat
  | .ofNat exponent =>
      if significand = 0 then 0
      else if exponent ≤ maxTenExponent then product (rankOfNat significand) (rankOfTenPow exponent)
      else infinityRank
  | .negSucc below => divideByTenPow (rankOfNat significand) (below + 1)

/-- The double that a decimal literal denotes, given its sign, the digits before and after its point
and its power of ten; none when it is too large. -/
def ofLiteral? (isNegative : Bool) (whole fraction : List Char) (exponent : Int) :
    Option Binary64 :=
  let (leading, untaken) := takeDigits 0 whole
  let (significand, dropped) := takeDigits leading fraction
  let point : Int := untaken.length - (fraction.length - dropped.length : Nat)
  ofRank? isNegative (rankOfScaled significand (point + exponent))

end WireSchema.Binary64

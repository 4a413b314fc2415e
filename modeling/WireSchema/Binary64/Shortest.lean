import WireSchema.Binary64.Basic
import WireSchema.Decimal

/-! # Shortest decimal text of a double

A double is written with the fewest digits for which the decimal is closer to it than to any other
double, and of the decimals of that length with the nearest one. Magnitudes from `10⁻⁵` up to `10¹⁶`
are written positionally, always with a point; all others with an exponent that carries its sign. -/

namespace WireSchema.Binary64

/-- The decimals that read as the double of a given rank, in quarters of a unit: the interval from
half way to the double below up to half way to the double above, whose ends belong to it when the
significand is even. -/
structure RoundingInterval where
  /-- Four times the units of the double. -/
  value : Nat
  /-- The lower end. -/
  lower : Nat
  /-- The upper end. -/
  upper : Nat
  /-- Whether the ends round to the double. -/
  isClosed : Bool

/-- The rounding interval of a rank; below the least significand of a spacing the doubles are twice
as dense. -/
def roundingInterval (rank : Nat) : RoundingInterval :=
  let spacing := 2 ^ scale rank
  let value := 4 * units rank
  -- the double below the least significand is half as far away
  let isLeast := significand rank = 2 ^ 52 ∧ 0 < scale rank
  ⟨value, value - (if isLeast then 1 else 2) * spacing, value + 2 * spacing,
    significand rank % 2 = 0⟩

/-- The number of quarter units in one. -/
def quartersPerOne : Nat := 4 * unitsPerOne

/-- The decimal `digits · 10 ^ exponent`. -/
structure DecimalNumber where
  /-- The digits, as a number. -/
  digits : Nat
  /-- The power of ten. -/
  exponent : Int
  deriving DecidableEq

/-- The numerator and the denominator of a quarter unit measured in `10 ^ exponent`. -/
def quarterIn : Int → Nat × Nat
  | .ofNat exponent => (1, quartersPerOne * 10 ^ exponent)
  | .negSucc below => (10 ^ (below + 1), quartersPerOne)

/-- Whether a multiple of `10 ^ exponent` lies in a rounding interval. -/
def RoundingInterval.holds (interval : RoundingInterval) (digits : Nat) (exponent : Int) : Bool :=
  let (numerator, denominator) := quarterIn exponent
  let point := digits * denominator
  let lower := interval.lower * numerator
  let upper := interval.upper * numerator
  if interval.isClosed then lower ≤ point && point ≤ upper else lower < point && point < upper

/-- The multiple of `10 ^ exponent` that reads back and lies nearest to the double, if its two
neighbours in that grid hold one; of two equally near ones, the even one. -/
def RoundingInterval.nearestOnGrid? (interval : RoundingInterval) (exponent : Int) : Option Nat :=
  let (numerator, denominator) := quarterIn exponent
  let below := interval.value * numerator / denominator
  let twiceRest := 2 * (interval.value * numerator % denominator)
  match interval.holds below exponent, interval.holds (below + 1) exponent with
  | true, true =>
      if twiceRest < denominator ∨ (twiceRest = denominator ∧ below % 2 = 0) then some below
      else some (below + 1)
  | true, false => some below
  | false, true => some (below + 1)
  | false, false => none

/-- The number of digits before the point of a positive double; for a double below one, minus the
number of zeros behind the point. -/
def wholeDigits (interval : RoundingInterval) : Int :=
  ((Decimal.digits (interval.value * 10 ^ 324 / quartersPerOne)).length : Int) - 324

/-- Search the grids of one digit, two digits and so on, at most `budget` of them. -/
def searchGrids (interval : RoundingInterval) (whole : Int) : Nat → Nat → DecimalNumber
  | _, 0 => ⟨0, 0⟩
  | length, budget + 1 =>
      -- the coarsest grid comes first, so the first decimal found is the shortest
      match interval.nearestOnGrid? (whole - length) with
      | some digits => ⟨digits, whole - length⟩
      | none => searchGrids interval whole (length + 1) budget

/-- The shortest decimal that reads as the positive double of the given rank; seventeen digits
suffice for every double. -/
def shortest (rank : Nat) : DecimalNumber :=
  let interval := roundingInterval rank
  searchGrids interval (wholeDigits interval) 1 17

/-- Leave out the zeros at the end of the digits of a decimal, raising its power of ten. -/
def significantDigits (decimal : DecimalNumber) : List Char × Int :=
  let digits := Decimal.digits decimal.digits
  let kept := (digits.reverse.dropWhile (· == '0')).reverse
  (kept, decimal.exponent + (digits.length - kept.length : Nat))

/-- The first power of ten that is written with an exponent is one more than this. -/
def maxPositional : Int := 16

/-- Numbers with this many zeros behind the point, negated, are written with an exponent. -/
def minPositional : Int := -5

/-- The text of the decimal whose digits are followed by `exponent` zeros. -/
def layout (digits : List Char) (exponent : Int) : List Char :=
  let whole := digits.length + exponent
  if 0 ≤ exponent ∧ whole ≤ maxPositional then
    digits ++ List.replicate exponent.toNat '0' ++ ['.', '0']
  else if 0 < whole ∧ whole ≤ maxPositional then
    digits.take whole.toNat ++ '.' :: digits.drop whole.toNat
  else if minPositional < whole ∧ whole ≤ 0 then
    '0' :: '.' :: List.replicate (-whole).toNat '0' ++ digits
  else
    -- one digit stands before the point
    let power := whole - 1
    let mantissa :=
      match digits with
      | first :: second :: rest => first :: '.' :: second :: rest
      | short => short
    mantissa ++ 'e' :: (if power < 0 then '-' else '+') :: Decimal.digits power.natAbs

/-- The text of a double. -/
def text (number : Binary64) : List Char :=
  let magnitude :=
    if number.rank = 0 then ['0', '.', '0']
    else
      let (digits, exponent) := significantDigits (shortest number.rank)
      layout digits exponent
  if number.isNegative then '-' :: magnitude else magnitude

end WireSchema.Binary64

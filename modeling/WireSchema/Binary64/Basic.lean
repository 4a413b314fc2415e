import WireSchema.Arithmetic

/-! # Finite doubles

The finite numbers of the IEEE 754 format binary64, as exact objects. A number is its sign and its
**rank**, its place in the increasing list of the nonnegative doubles, which starts with zero at
rank 0. All values are whole multiples of the least positive double, the **unit** `2⁻¹⁰⁷⁴`, so that
arithmetic on them is arithmetic of natural numbers followed by one rounding. -/

namespace WireSchema

/-- The rank that a magnitude too large for a finite double would have. -/
def Binary64.infinityRank : Nat := 2047 * 2 ^ 52

/-- **A finite double**, given by its sign and the rank of its magnitude. -/
structure Binary64 where
  /-- Whether the sign is minus; zero has both signs. -/
  isNegative : Bool
  /-- The place of the magnitude in the increasing list of nonnegative doubles. -/
  rank : Nat
  /-- Only finite magnitudes have a place. -/
  rank_lt : rank < Binary64.infinityRank
  deriving DecidableEq

namespace Binary64

/-- Zero with the given sign. -/
def zero (isNegative : Bool) : Binary64 := ⟨isNegative, 0, by decide⟩

/-- The double of the given sign and rank, if that rank is finite. -/
def ofRank? (isNegative : Bool) (rank : Nat) : Option Binary64 :=
  if finite : rank < infinityRank then some ⟨isNegative, rank, finite⟩ else none

/-- Two doubles are equal as numbers when they are the same or both zero. -/
def sameNumber (left right : Binary64) : Bool :=
  left.rank == right.rank && (left.isNegative == right.isNegative || left.rank == 0)

/-! ## (1) Ranks and units -/

/-- How often the spacing of the doubles has doubled at a rank. -/
def scale (rank : Nat) : Nat := rank / 2 ^ 52 - 1

/-- The magnitude at a rank in multiples of the spacing there. -/
def significand (rank : Nat) : Nat := rank - scale rank * 2 ^ 52

/-- The magnitude at a rank, in units. -/
def units (rank : Nat) : Nat := significand rank * 2 ^ scale rank

/-- The number of units in one. -/
def unitsPerOne : Nat := 2 ^ 1074

/-! ## (2) Rounding -/

/-- The whole number nearest to `numerator / denominator`; of two, the even one. -/
def nearestEven (numerator denominator : Nat) : Nat :=
  let quotient := numerator / denominator
  let twiceRest := 2 * (numerator % denominator)
  if twiceRest < denominator then quotient
  else if denominator < twiceRest then quotient + 1
  else if quotient % 2 = 0 then quotient else quotient + 1

/-- The rank of the double nearest to `numerator / denominator` units; of two, the one with the even
significand. It is at least `infinityRank` when the quotient is too large. -/
def rankOfUnits (numerator denominator : Nat) : Nat :=
  let doublings := Nat.log2 (numerator / denominator) - 52
  doublings * 2 ^ 52 + nearestEven numerator (denominator * 2 ^ doublings)

/-- The rank of the double nearest to a natural number. -/
def rankOfNat (n : Nat) : Nat := rankOfUnits (n * unitsPerOne) 1

/-- The rank of the rounded product of two magnitudes. -/
def product (left right : Nat) : Nat := rankOfUnits (units left * units right) unitsPerOne

/-- The rank of the rounded quotient of two magnitudes, the second of which is not zero. -/
def quotient (left right : Nat) : Nat := rankOfUnits (units left * unitsPerOne) (units right)

/-- One has its usual bit pattern as its rank, and the magnitude there is one. -/
example : rankOfNat 1 = 0x3FF0000000000000 ∧ units 0x3FF0000000000000 = unitsPerOne := by
  decide +kernel

end Binary64

end WireSchema

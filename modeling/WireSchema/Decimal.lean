import WireSchema.Arithmetic

/-! # Decimal digits

Digit strings of natural numbers, of natural width and of a fixed width, and their values. -/

namespace WireSchema.Decimal

/-- The digits of `n`, most significant first, without leading zeros. -/
def digits (n : Nat) : List Char := Nat.toDigits 10 n

/-- The number that a string of digits spells. -/
def value (text : List Char) : Nat := Nat.ofDigitChars 10 text 0

/-- Reading the digits of a number gives the number. -/
@[simp] theorem value_digits (n : Nat) : value (digits n) = n := Nat.ofDigitChars_ten_toDigits

/-- The last `width` digits of `n`, with leading zeros where `n` is shorter. -/
def fixed : Nat → Nat → List Char
  | 0, _ => []
  | width + 1, n => fixed width (n / 10) ++ [Nat.digitChar (n % 10)]

@[simp] theorem fixed_zero (n : Nat) : fixed 0 n = [] := rfl

/-- A fixed-width digit string has its width. -/
@[simp] theorem length_fixed (width n : Nat) : (fixed width n).length = width := by
  induction width generalizing n with
  | zero => rfl
  | succ width induction => simp [fixed, induction]

/-- The digits of `n`, with leading zeros up to `width`. -/
def padded (width n : Nat) : List Char :=
  List.replicate (width - (digits n).length) '0' ++ digits n

/-- The digits of an integer after its minus sign, if any. -/
def ofInt : Int → List Char
  | .ofNat n => digits n
  | .negSucc n => '-' :: digits (n + 1)

end WireSchema.Decimal

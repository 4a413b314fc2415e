import Mathlib.Data.List.Induction
import WireSchema.Decimal

/-! # Digit strings

What digit strings of a fixed width spell, how large a number digits can spell, and that numbers
are written without leading zeros and are the only ones to be written as they are. -/

namespace WireSchema.Decimal

/-- Numbers are written in digits. -/
theorem isDigit_of_mem_digits {n : Nat} {c : Char} (held : c ∈ digits n) : c.isDigit = true :=
  Nat.isDigit_of_mem_toDigits (by omega) (by omega) held

/-- No number but zero is written with a zero in front. -/
theorem head?_digits_ne_zero {n : Nat} (positive : 0 < n) : (digits n).head? ≠ some '0' := by
  induction n using Nat.strongRecOn with
  | ind n induction =>
      by_cases short : n < 10
      · rw [digits, Nat.toDigits_of_lt_base short]
        simp only [List.head?_cons, ne_eq, Option.some.injEq, Nat.digitChar_eq_zero]
        omega
      · -- the first digit is that of a tenth of the number
        have tenth := induction (n / 10) (by omega) (by omega)
        rw [digits] at tenth
        rw [digits, Nat.toDigits_of_base_le (by omega) (by omega),
          List.head?_append, Option.or_of_isSome (List.isSome_head?.mpr Nat.toDigits_ne_nil)]
        exact tenth

/-- The characters of a fixed-width digit string are digits. -/
theorem isDigit_of_mem_fixed {width n : Nat} {c : Char} (held : c ∈ fixed width n) :
    c.isDigit = true := by
  induction width generalizing n with
  | zero => simp [fixed] at held
  | succ width induction =>
      rcases List.mem_append.mp held with front | last
      · exact induction front
      · rw [List.mem_singleton.mp last]
        rw [Nat.isDigit_digitChar]
        exact decide_eq_true (Nat.mod_lt n (by omega))

/-- The last digits of a number spell what is left of it. -/
@[simp] theorem value_fixed (width n : Nat) : value (fixed width n) = n % 10 ^ width := by
  induction width generalizing n with
  | zero => simp [fixed, value, Nat.mod_one]
  | succ width induction =>
      have front : Nat.ofDigitChars 10 (fixed width (n / 10)) 0 = n / 10 % 10 ^ width :=
        induction (n / 10)
      rw [value, fixed, Nat.ofDigitChars_append, front,
        Nat.ofDigitChars_cons_digitChar_of_lt_ten (Nat.mod_lt n (by omega)), Nat.ofDigitChars_nil,
        Nat.pow_succ', Nat.mod_mul]
      omega

/-- The digit of the value of a digit is this digit. -/
theorem digitChar_of_isDigit {c : Char} (isDigit : c.isDigit = true) :
    c.toNat - '0'.toNat < 10 ∧ Nat.digitChar (c.toNat - '0'.toNat) = c := by
  have bounds : 48 ≤ c.toNat ∧ c.toNat ≤ 57 := by
    simp only [Char.isDigit, Bool.and_eq_true, decide_eq_true_eq] at isDigit
    exact isDigit
  have zero : '0'.toNat = 48 := rfl
  have small : c.toNat - 48 < 10 := by omega
  have spelled : ∀ n < 10, Nat.digitChar n = Char.ofNat (48 + n) := by decide
  rw [zero]
  refine ⟨small, ?_⟩
  rw [spelled _ small, Nat.add_sub_cancel' bounds.1, Char.ofNat_toNat]

/-- Digits spell a number below the power of ten of their count. -/
theorem value_lt_of_isDigit {text : List Char} (digits : ∀ c ∈ text, c.isDigit = true) :
    value text < 10 ^ text.length := by
  have each : ∀ init, Nat.ofDigitChars 10 text init < (init + 1) * 10 ^ text.length := by
    induction text with
    | nil => simp
    | cons c rest induction =>
        intro init
        rw [List.forall_mem_cons] at digits
        obtain ⟨small, _⟩ := digitChar_of_isDigit digits.1
        have later := induction digits.2 (10 * init + (c.toNat - '0'.toNat))
        rw [Nat.ofDigitChars_cons, List.length_cons, Nat.pow_succ']
        calc Nat.ofDigitChars 10 rest (10 * init + (c.toNat - '0'.toNat))
            < (10 * init + (c.toNat - '0'.toNat) + 1) * 10 ^ rest.length := later
          _ ≤ ((init + 1) * 10) * 10 ^ rest.length := Nat.mul_le_mul_right _ (by omega)
          _ = (init + 1) * (10 * 10 ^ rest.length) := Nat.mul_assoc _ _ _
  have bound := each 0
  rw [Nat.zero_add, Nat.one_mul] at bound
  exact bound

/-- **Digits without a leading zero** are those of the number that they spell. -/
theorem digits_value {text : List Char} (digitsOnly : ∀ c ∈ text, c.isDigit = true)
    (filled : text ≠ []) (first : text.head? ≠ some '0') : digits (value text) = text := by
  induction text using List.reverseRecOn with
  | nil => exact absurd rfl filled
  | append_singleton front c induction =>
      obtain ⟨small, spelled⟩ := digitChar_of_isDigit
        (digitsOnly c (List.mem_append_right front (List.mem_singleton_self c)))
      have total : value (front ++ [c]) = 10 * value front + (c.toNat - '0'.toNat) := by
        rw [value, Nat.ofDigitChars_append, Nat.ofDigitChars_cons, Nat.ofDigitChars_nil, value]
      rw [digits, total]
      rcases eq_or_ne front [] with rfl | more
      · rw [value, Nat.ofDigitChars_nil, Nat.mul_zero, Nat.zero_add,
          Nat.toDigits_of_lt_base small, spelled, List.nil_append]
      · -- the digits in front spell a number that is not zero, for they do not start with a zero
        have front' : digits (value front) = front := by
          refine induction (fun d held => digitsOnly d (List.mem_append_left [c] held)) more ?_
          rwa [List.head?_append, Option.or_of_isSome (List.isSome_head?.mpr more)] at first
        have positive : 0 < value front := by
          rcases Nat.eq_zero_or_pos (value front) with zero | positive
          · rw [zero] at front'
            rw [← front'] at first
            exact absurd rfl first
          · exact positive
        rw [Nat.toDigits_of_base_le (by omega) (by omega)]
        rw [show (10 * value front + (c.toNat - '0'.toNat)) / 10 = value front by omega,
          show (10 * value front + (c.toNat - '0'.toNat)) % 10 = c.toNat - '0'.toNat by omega,
          spelled]
        exact congrArg (· ++ [c]) front'

end WireSchema.Decimal

import Mathlib.Data.List.Basic
import Mathlib.Tactic.SplitIfs
import WireSchema.Timestamp.Calendar

/-! # Dates and day numbers

The date of a day number exists, and the day number of a date that is made from one is that number.
The mean length of a year misses the year of a day by at most one. -/

namespace WireSchema.Calendar

/-! ## (1) Years -/

/-- The year of a day begins at or before the day and ends behind it. -/
theorem daysBeforeYear_yearOf (days : Int) :
    daysBeforeYear (yearOf days) ≤ days ∧ days < daysBeforeYear (yearOf days + 1) := by
  unfold yearOf daysBeforeYear
  -- the estimate is linear up to the roundings, of which there is one for each term
  simp only
  split_ifs <;> omega

/-- Every fourth year leaps, but of the centuries only every fourth one. -/
theorem isLeap_iff (year : Int) :
    isLeap year = true ↔ year % 4 = 0 ∧ (year % 100 ≠ 0 ∨ year % 400 = 0) := by
  simp [isLeap]

/-- The months of a year make up its days. -/
theorem sum_monthLengths (year : Int) :
    (monthLengths year).sum = if isLeap year then 366 else 365 := by
  unfold monthLengths
  split_ifs <;> rfl

/-- No month is longer than 31 days. -/
theorem getD_monthLengths_le (year : Int) (month : Nat) :
    (monthLengths year).getD month 0 ≤ 31 := by
  have each : ∀ length ∈ monthLengths year, length ≤ 31 := by
    unfold monthLengths
    split_ifs <;> decide
  rw [List.getD_eq_getElem?_getD]
  cases found : (monthLengths year)[month]? with
  | none => exact Nat.zero_le 31
  | some length => exact each length (List.mem_of_getElem? found)

/-- A year has the length of its months. -/
theorem daysBeforeYear_succ (year : Int) :
    daysBeforeYear (year + 1) = daysBeforeYear year + (monthLengths year).sum := by
  rw [sum_monthLengths]
  unfold daysBeforeYear
  by_cases leap : isLeap year = true
  · rw [if_pos leap]
    have rule := (isLeap_iff year).mp leap
    simp only
    omega
  · rw [if_neg leap]
    have rule := mt (isLeap_iff year).mpr leap
    simp only
    omega

/-! ## (2) Months -/

/-- Days within months are split into a number of whole months and the days of the next one. -/
theorem splitMonths_eq (lengths : List Nat) (month days : Nat) (within : days < lengths.sum) :
    ∃ whole < lengths.length, ∃ rest < lengths.getD whole 0,
      (lengths.take whole).sum + rest = days ∧
        splitMonths lengths month days = (month + whole, rest + 1) := by
  induction lengths generalizing month days with
  | nil => simp at within
  | cons length lengths induction =>
      rw [splitMonths]
      by_cases first : days < length
      · refine ⟨0, by simp, days, by simpa using first, by simp, ?_⟩
        rw [if_pos first]
        rfl
      · have later : days - length < lengths.sum := by
          rw [List.sum_cons] at within
          omega
        obtain ⟨whole, bound, rest, fits, total, same⟩ :=
          induction (month + 1) (days - length) later
        refine ⟨whole + 1, by simpa using bound, rest, by simpa using fits, ?_, ?_⟩
        · rw [List.take_succ_cons, List.sum_cons]
          omega
        · rw [if_neg first, same]
          exact congrArg (·, rest + 1) (by omega)

/-! ## (3) Dates -/

/-- The date of a day number: its year, with a number of whole months and the days behind them. -/
theorem ofDayNumber_eq (number : Int) :
    ∃ whole < 12, ∃ rest < (monthLengths (yearOf (number + epochDays))).getD whole 0,
      daysBeforeYear (yearOf (number + epochDays)) +
        (((monthLengths (yearOf (number + epochDays))).take whole).sum + rest : Nat) =
          number + epochDays ∧
      Date.ofDayNumber number = ⟨yearOf (number + epochDays), 1 + whole, rest + 1⟩ := by
  obtain ⟨begun, ended⟩ := daysBeforeYear_yearOf (number + epochDays)
  rw [daysBeforeYear_succ] at ended
  -- the year holds the day, so that the days behind its first one are days of its months
  have within : (number + epochDays - daysBeforeYear (yearOf (number + epochDays))).toNat <
      (monthLengths (yearOf (number + epochDays))).sum := by omega
  obtain ⟨whole, bound, rest, fits, total, same⟩ := splitMonths_eq _ 1 _ within
  refine ⟨whole, bound, rest, fits, ?_, ?_⟩
  · rw [total]
    omega
  · rw [Date.ofDayNumber]
    simp only [same]

/-- The month and the day of a date that exists have two digits. -/
theorem Date.le_of_isValid {date : Date} (valid : date.isValid = true) :
    date.month ≤ 12 ∧ date.day ≤ 31 := by
  have bound := getD_monthLengths_le date.year (date.month - 1)
  simp only [Date.isValid, Bool.and_eq_true, decide_eq_true_eq] at valid
  omega

/-- The date of a day number exists. -/
theorem isValid_ofDayNumber (number : Int) : (Date.ofDayNumber number).isValid = true := by
  obtain ⟨whole, bound, rest, fits, _, same⟩ := ofDayNumber_eq number
  rw [same, Date.isValid]
  simp only [Nat.add_sub_cancel_left, Bool.and_eq_true, decide_eq_true_eq]
  omega

/-- **The day number of the date** of a day number is that number. -/
theorem dayNumber_ofDayNumber (number : Int) : (Date.ofDayNumber number).dayNumber = number := by
  obtain ⟨whole, _, rest, _, total, same⟩ := ofDayNumber_eq number
  rw [same, Date.dayNumber]
  simp only [Nat.add_sub_cancel_left]
  omega

end WireSchema.Calendar

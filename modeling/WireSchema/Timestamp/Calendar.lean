import WireSchema.Arithmetic

/-! # The Gregorian calendar

Dates of the proleptic Gregorian calendar, for all years, and their day numbers, which count from
1970-01-01. -/

namespace WireSchema.Calendar

/-- Whether a year has 366 days. -/
def isLeap (year : Int) : Bool := year % 4 = 0 && (year % 100 != 0 || year % 400 = 0)

/-- The lengths of the months of a year. -/
def monthLengths (year : Int) : List Nat :=
  [31, if isLeap year then 29 else 28, 31, 30, 31, 30, 31, 31, 30, 31, 30, 31]

/-- **A calendar date**. -/
structure Date where
  /-- The year, where the year before year 1 is year 0. -/
  year : Int
  /-- The month, from 1. -/
  month : Nat
  /-- The day of the month, from 1. -/
  day : Nat
  deriving DecidableEq

/-- Whether a date exists. -/
def Date.isValid (date : Date) : Bool :=
  1 ≤ date.month && date.month ≤ 12 && 1 ≤ date.day &&
    date.day ≤ (monthLengths date.year).getD (date.month - 1) 0

/-- The number of days from the first day of year 1 to the first day of a year. -/
def daysBeforeYear (year : Int) : Int :=
  let past := year - 1
  365 * past + past / 4 - past / 100 + past / 400

/-- The number of days from the first day of year 1 to 1970-01-01. -/
def epochDays : Int := 719162

/-- The day number of a date. -/
def Date.dayNumber (date : Date) : Int :=
  daysBeforeYear date.year + ((monthLengths date.year).take (date.month - 1)).sum +
    (date.day - 1 : Int) - epochDays

/-- The year that holds the day which is `days` days after the first day of year 1. The mean length
of a year gives it up to one year. -/
def yearOf (days : Int) : Int :=
  let estimate := days * 400 / 146097 + 1
  if days < daysBeforeYear estimate then estimate - 1
  else if daysBeforeYear (estimate + 1) ≤ days then estimate + 1
  else estimate

/-- The month and the day of the month of a day of the year, given the lengths of the months from
month `month` on and the number of days since the first day of that month. -/
def splitMonths : List Nat → Nat → Nat → Nat × Nat
  | [], month, days => (month, days + 1)
  | length :: rest, month, days =>
      if days < length then (month, days + 1) else splitMonths rest (month + 1) (days - length)

/-- The date of a day number. -/
def Date.ofDayNumber (number : Int) : Date :=
  let days := number + epochDays
  let year := yearOf days
  let (month, day) := splitMonths (monthLengths year) 1 (days - daysBeforeYear year).toNat
  ⟨year, month, day⟩

end WireSchema.Calendar

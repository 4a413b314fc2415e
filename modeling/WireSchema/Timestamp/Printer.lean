import WireSchema.Decimal
import WireSchema.Timestamp.Basic
import WireSchema.Timestamp.Calendar

/-! # Writing timestamps

A timestamp is written as a date and a time in universal time with three digits of milliseconds,
which are cut and not rounded. A leap second is second 60. Years from 0 to 9999 have four digits;
other years have a sign and at least four digits. -/

namespace WireSchema.Timestamp

/-- The text of a year. -/
def yearText (year : Int) : List Char :=
  if 0 ≤ year ∧ year ≤ 9999 then Decimal.fixed 4 year.toNat
  else (if year < 0 then '-' else '+') :: Decimal.padded 4 year.natAbs

/-- The date of a timestamp. -/
def date (timestamp : Timestamp) : Calendar.Date :=
  .ofDayNumber (timestamp.seconds / secondsPerDay)

/-- The number of whole seconds since the start of the day. -/
def secondOfDay (timestamp : Timestamp) : Nat := (timestamp.seconds % secondsPerDay).toNat

/-- The second within the minute; 60 is the leap second behind second 59. -/
def second (timestamp : Timestamp) : Nat :=
  timestamp.secondOfDay % 60 + timestamp.nanos / nanosPerSecond

/-- The milliseconds within the second. -/
def millis (timestamp : Timestamp) : Nat := timestamp.nanos % nanosPerSecond / 1000000

/-- The characters of a timestamp. -/
def chars (timestamp : Timestamp) : List Char :=
  let date := timestamp.date
  yearText date.year ++ '-' :: Decimal.fixed 2 date.month ++ '-' :: Decimal.fixed 2 date.day ++
    'T' :: Decimal.fixed 2 (timestamp.secondOfDay / 3600) ++
    ':' :: Decimal.fixed 2 (timestamp.secondOfDay / 60 % 60) ++
    ':' :: Decimal.fixed 2 timestamp.second ++ '.' :: Decimal.fixed 3 timestamp.millis ++ ['Z']

/-- The text of a timestamp. -/
def render (timestamp : Timestamp) : String := String.ofList timestamp.chars

end WireSchema.Timestamp

import WireSchema.Decimal
import WireSchema.Timestamp.Basic
import WireSchema.Timestamp.Calendar

/-! # Reading timestamps

The texts of RFC 3339: a date, a `T` or a blank, a time with any number of digits behind the second,
and an offset from universal time. The date is checked before what follows it is read, and the time
before the offset. -/

namespace WireSchema.Timestamp

/-- Why a text is no timestamp. -/
inductive ParseError where
  /-- The text ends too early. -/
  | tooShort
  /-- A character is not what stands at its place. -/
  | invalid
  /-- A date, a time or an offset does not exist. -/
  | outOfRange
  /-- Something follows the offset. -/
  | tooLong
  deriving DecidableEq

/-- The text of an error. -/
def ParseError.message : ParseError → String
  | .tooShort => "premature end of input"
  | .invalid => "input contains invalid characters"
  | .outOfRange => "input is out of range"
  | .tooLong => "trailing input"

/-! ## (1) Parts -/

/-- The value of a decimal digit. -/
def digit (c : Char) : Except ParseError Nat :=
  if c.isDigit then .ok (c.toNat - '0'.toNat) else .error .invalid

/-- Read `count` digits, after digits of the given value. -/
def digitsAfter : Nat → Nat → List Char → Except ParseError (Nat × List Char)
  | 0, value, rest => .ok (value, rest)
  | _ + 1, _, [] => .error .tooShort
  | count + 1, value, c :: rest => do
      let last ← digit c
      digitsAfter count (10 * value + last) rest

/-- Read a number of exactly `count` digits. -/
def digits (count : Nat) (text : List Char) : Except ParseError (Nat × List Char) :=
  digitsAfter count 0 text

/-- Read one of the given characters. -/
def oneOf (allowed : List Char) : List Char → Except ParseError (List Char)
  | [] => .error .tooShort
  | c :: rest => if allowed.contains c then .ok rest else .error .invalid

/-- The nanoseconds that the digits behind the point of a second stand for; nine digits count. -/
def nanosOfDigits (text : List Char) : Nat :=
  let counted := text.take 9
  Decimal.value counted * 10 ^ (9 - counted.length)

/-- Read a point and the digits behind it, if there is a point. -/
def fraction : List Char → Except ParseError (Nat × List Char)
  | '.' :: behind =>
      match behind.span Char.isDigit with
      | ([], []) => .error .tooShort
      | ([], _ :: _) => .error .invalid
      | (digits, rest) => .ok (nanosOfDigits digits, rest)
  | text => .ok (0, text)

/-! ## (2) Offsets -/

/-- Read two digits of which the first is at most 5 if `isMinute` holds; fewer than two bytes are
too short, whatever they are. -/
def twoDigits (isMinute : Bool) : List Char → Except ParseError (Nat × List Char)
  | [] => .error .tooShort
  | [c] => if c.utf8Size < 2 then .error .tooShort else .error .invalid
  | c :: d :: rest => do
      let tens ← digit c
      let ones ← digit d
      if isMinute && 6 ≤ tens then .error .outOfRange else .ok (10 * tens + ones, rest)

/-- Read the hours and the minutes of an offset, as minutes. -/
def offsetMinutes (text : List Char) : Except ParseError (Nat × List Char) := do
  let (hours, afterHours) ← twoDigits false text
  let (minutes, rest) ← twoDigits true (← oneOf [':'] afterHours)
  return (60 * hours + minutes, rest)

/-- Read an offset in seconds: none for `Z`, else signed hours and minutes; the minus sign of
typography is a sign too. -/
def offset : List Char → Except ParseError (Int × List Char)
  | [] => .error .tooShort
  | c :: rest => do
      if c = 'Z' ∨ c = 'z' then return (0, rest)
      else if c = '+' then
        let (minutes, behind) ← offsetMinutes rest
        return (60 * minutes, behind)
      else if c = '-' ∨ c = '\u2212' then
        let (minutes, behind) ← offsetMinutes rest
        return (-(60 * minutes : Nat), behind)
      else throw .invalid

/-! ## (3) Timestamps -/

/-- The time of day that hour, minute, second and nanoseconds name, as seconds and nanoseconds;
second 60 is the leap second behind second 59. -/
def timeOfDay (hour minute second nanos : Nat) : Except ParseError (Nat × Nat) :=
  if 23 < hour ∨ 59 < minute ∨ 60 < second then .error .outOfRange
  else if second = 60 then .ok (3600 * hour + 60 * minute + 59, nanosPerSecond + nanos)
  else .ok (3600 * hour + 60 * minute + second, nanos)

/-- Read a date that exists, as a day number. -/
def parseDate (text : List Char) : Except ParseError (Int × List Char) := do
  let (year, afterYear) ← digits 4 text
  let (month, afterMonth) ← digits 2 (← oneOf ['-'] afterYear)
  let (day, rest) ← digits 2 (← oneOf ['-'] afterMonth)
  let date : Calendar.Date := ⟨year, month, day⟩
  if date.isValid then return (date.dayNumber, rest) else throw .outOfRange

/-- Read a time that exists, as seconds and nanoseconds of the day. -/
def parseTime (text : List Char) : Except ParseError ((Nat × Nat) × List Char) := do
  let (hour, afterHour) ← digits 2 text
  let (minute, afterMinute) ← digits 2 (← oneOf [':'] afterHour)
  let (second, afterSecond) ← digits 2 (← oneOf [':'] afterMinute)
  let (nanos, rest) ← fraction afterSecond
  return (← timeOfDay hour minute second nanos, rest)

/-- The number of bytes of a date and a time up to its second. -/
def minBytes : Nat := 19

/-- Read the characters of a timestamp. -/
def parseChars (text : List Char) : Except ParseError Timestamp := do
  if (text.map Char.utf8Size).sum < minBytes then throw .tooShort
  let (day, afterDate) ← parseDate text
  let ((second, nanos), afterTime) ← parseTime (← oneOf ['T', 't', ' '] afterDate)
  let (offset, rest) ← offset afterTime
  -- the end of the text is looked for before the size of the offset
  unless rest.isEmpty do throw .tooLong
  if offset.natAbs < secondsPerDay then
    return ⟨day * secondsPerDay + second - offset, nanos⟩
  else throw .outOfRange

/-- Read a timestamp. -/
def parse (text : String) : Except ParseError Timestamp := parseChars text.toList

end WireSchema.Timestamp

import Mathlib.Data.List.TakeDrop
import Mathlib.Data.List.TakeWhile
import WireSchema.Proofs.Decimal
import WireSchema.Proofs.Runs
import WireSchema.Proofs.Timestamp.Calendar
import WireSchema.Timestamp.Parser
import WireSchema.Timestamp.Printer

/-! # Reading what was written

A timestamp of a year from 0 to 9999 is read back from its text, cut to whole milliseconds
(`parse_render`). Every timestamp that is read has its leap seconds at the end of a minute
(`isProper_of_parse`). -/

namespace WireSchema.Timestamp

/-- **A proper timestamp**: the nanoseconds stay within the second, or within the leap second that
follows the last second of a minute. Timestamps are made this way, and those that are read are
(`isProper_of_parse`); the record alone does not tell. -/
structure IsProper (timestamp : Timestamp) : Prop where
  /-- There is at most one leap second. -/
  nanos_lt : timestamp.nanos < 2 * nanosPerSecond
  /-- A leap second follows the last second of a minute. -/
  leap : nanosPerSecond ≤ timestamp.nanos → timestamp.seconds % 60 = 59

/-- The year of a timestamp has four digits. -/
def HasPlainYear (timestamp : Timestamp) : Prop :=
  0 ≤ timestamp.date.year ∧ timestamp.date.year ≤ 9999

/-! ## (1) Digits -/

/-- The character of a digit is read as the digit. -/
theorem digit_digitChar {d : Nat} (small : d < 10) : digit (Nat.digitChar d) = .ok d := by
  rw [digit, Nat.isDigit_digitChar, if_pos (decide_eq_true small)]
  exact congrArg Except.ok (Nat.toNat_digitChar_sub_48_of_lt_ten small)

/-- Reading some digits and then some more is reading all of them. -/
theorem digitsAfter_add (first second value : Nat) (text : List Char) :
    digitsAfter (first + second) value text =
      digitsAfter first value text >>= fun read => digitsAfter second read.1 read.2 := by
  induction first generalizing value text with
  | zero =>
      rw [Nat.zero_add, digitsAfter]
      rfl
  | succ first induction =>
      rw [Nat.add_right_comm]
      cases text with
      | nil => rfl
      | cons c rest =>
          rw [digitsAfter, digitsAfter, bind_assoc]
          exact bind_congr fun last => induction _ _

/-- Digits of a fixed width are read behind those before as one number. -/
theorem digitsAfter_fixed (width n value : Nat) (rest : List Char) :
    digitsAfter width value (Decimal.fixed width n ++ rest) =
      .ok (value * 10 ^ width + n % 10 ^ width, rest) := by
  induction width generalizing n value rest with
  | zero =>
      rw [Decimal.fixed_zero, List.nil_append, digitsAfter, Nat.pow_zero, Nat.mod_one]
      simp
  | succ width induction =>
      -- the last digit is read behind those before it
      rw [Decimal.fixed, List.append_assoc, digitsAfter_add, induction]
      show digitsAfter 1 _ (Nat.digitChar (n % 10) :: rest) = _
      rw [digitsAfter, digit_digitChar (Nat.mod_lt n (by omega))]
      show Except.ok (10 * (value * 10 ^ width + n / 10 % 10 ^ width) + n % 10, rest) = _
      rw [Nat.pow_succ', Nat.mod_mul, Nat.mul_add, ← Nat.mul_assoc, ← Nat.mul_assoc,
        Nat.mul_comm 10 value]
      congr 2
      omega

/-- A number of fixed width is read. -/
theorem digits_fixed {width n : Nat} (fits : n < 10 ^ width) (rest : List Char) :
    digits width (Decimal.fixed width n ++ rest) = .ok (n, rest) := by
  rw [digits, digitsAfter_fixed, Nat.zero_mul, Nat.zero_add, Nat.mod_eq_of_lt fits]

/-- Three digits behind a point are milliseconds. -/
theorem fraction_fixed {millis : Nat} (fits : millis < 1000) {c : Char} (ends : c.isDigit = false)
    (rest : List Char) :
    fraction ('.' :: (Decimal.fixed 3 millis ++ c :: rest)) =
      .ok (millis * 1000000, c :: rest) := by
  have digitsOnly : ∀ c ∈ Decimal.fixed 3 millis, c.isDigit = true :=
    fun _ => Decimal.isDigit_of_mem_fixed
  have split : (Decimal.fixed 3 millis ++ c :: rest).span Char.isDigit =
      (Decimal.fixed 3 millis, c :: rest) := by
    rw [List.span_eq_takeWhile_dropWhile, List.takeWhile_append_of_pos digitsOnly,
      List.dropWhile_append_of_pos digitsOnly, List.takeWhile_cons_of_neg (by simp [ends]),
      List.dropWhile_cons_of_neg (by simp [ends]), List.append_nil]
  have nanos : nanosOfDigits (Decimal.fixed 3 millis) = millis * 1000000 := by
    have small : millis < 10 ^ 3 := fits
    have scale : 10 ^ (9 - 3) = 1000000 := by decide
    rw [nanosOfDigits, List.take_of_length_le (by simp), Decimal.value_fixed,
      Decimal.length_fixed, Nat.mod_eq_of_lt small, scale]
  rw [fraction, split, ← nanos]
  cases shape : Decimal.fixed 3 millis with
  | nil =>
      have length := Decimal.length_fixed 3 millis
      rw [shape] at length
      cases length
  | cons first others => rfl

/-! ## (2) Dates and times -/

/-- One of the allowed characters is passed over. -/
theorem oneOf_of_mem {allowed : List Char} {c : Char} (held : c ∈ allowed) (rest : List Char) :
    oneOf allowed (c :: rest) = .ok rest := by
  rw [oneOf, if_pos (List.contains_iff_mem.mpr held)]

/-- A date of four, two and two digits is read. -/
theorem parseDate_fixed {date : Calendar.Date} (valid : date.isValid = true)
    (plain : 0 ≤ date.year ∧ date.year ≤ 9999) (rest : List Char) :
    parseDate (Decimal.fixed 4 date.year.toNat ++ '-' :: (Decimal.fixed 2 date.month ++
      '-' :: (Decimal.fixed 2 date.day ++ rest))) = .ok (date.dayNumber, rest) := by
  have bounds := Calendar.Date.le_of_isValid valid
  have year : (date.year.toNat : Int) = date.year := Int.toNat_of_nonneg plain.1
  simp only [parseDate, digits_fixed (show date.year.toNat < 10 ^ 4 by omega),
    digits_fixed (show date.month < 10 ^ 2 by omega),
    digits_fixed (show date.day < 10 ^ 2 by omega),
    oneOf_of_mem (List.mem_singleton.mpr rfl), ok_bind, year, valid, if_true]
  rfl

/-- A time of two, two, two and three digits is read. -/
theorem parseTime_fixed {hour minute second millis : Nat} (hourFits : hour < 24)
    (minuteFits : minute < 60) (secondFits : second ≤ 60) (millisFit : millis < 1000)
    (rest : List Char) :
    parseTime (Decimal.fixed 2 hour ++ ':' :: (Decimal.fixed 2 minute ++
      ':' :: (Decimal.fixed 2 second ++ '.' :: (Decimal.fixed 3 millis ++ 'Z' :: rest)))) =
      (timeOfDay hour minute second (millis * 1000000)).map (·, 'Z' :: rest) := by
  simp only [parseTime, digits_fixed (show hour < 10 ^ 2 by omega),
    digits_fixed (show minute < 10 ^ 2 by omega), digits_fixed (show second < 10 ^ 2 by omega),
    oneOf_of_mem (List.mem_singleton.mpr rfl), ok_bind,
    fraction_fixed millisFit (show 'Z'.isDigit = false from rfl)]
  cases timeOfDay hour minute second (millis * 1000000) <;> rfl

/-- A day has 86400 seconds. -/
theorem secondOfDay_lt (timestamp : Timestamp) : timestamp.secondOfDay < 86400 := by
  unfold secondOfDay secondsPerDay
  omega

/-- Minutes start with the day. -/
theorem secondOfDay_mod (timestamp : Timestamp) :
    (timestamp.secondOfDay % 60 : Int) = timestamp.seconds % 60 := by
  unfold secondOfDay secondsPerDay
  omega

/-- A second has 1000 milliseconds. -/
theorem millis_lt (timestamp : Timestamp) : timestamp.millis < 1000 := by
  unfold millis nanosPerSecond
  omega

/-- A minute has a 60th second only when it leaps. -/
theorem second_le {timestamp : Timestamp} (proper : timestamp.IsProper) :
    timestamp.second ≤ 60 := by
  have nanos := proper.nanos_lt
  unfold second
  unfold nanosPerSecond at *
  omega

/-- The time of day of a timestamp is read from its parts, cut to milliseconds. -/
theorem timeOfDay_parts {timestamp : Timestamp} (proper : timestamp.IsProper) :
    timeOfDay (timestamp.secondOfDay / 3600) (timestamp.secondOfDay / 60 % 60) timestamp.second
      (timestamp.millis * 1000000) =
      .ok (timestamp.secondOfDay, timestamp.nanos / 1000000 * 1000000) := by
  have bound := secondOfDay_lt timestamp
  have atMinute := secondOfDay_mod timestamp
  have nanos := proper.nanos_lt
  have leap := proper.leap
  unfold timeOfDay second millis
  unfold nanosPerSecond at *
  by_cases isLeap : 1000000000 ≤ timestamp.nanos
  · -- the leap second is written as second 60, and its nanoseconds from zero on
    have last := leap isLeap
    have whole : timestamp.nanos / 1000000000 = 1 := by omega
    rw [whole, if_neg (by omega), if_pos (by omega)]
    refine congrArg Except.ok (Prod.ext ?_ ?_)
    · simp only
      omega
    · simp only
      omega
  · have whole : timestamp.nanos / 1000000000 = 0 := by omega
    rw [whole, if_neg (by omega), if_neg (by omega)]
    refine congrArg Except.ok (Prod.ext ?_ ?_)
    · simp only
      omega
    · simp only
      omega

/-! ## (3) Timestamps -/

/-- The text of a timestamp of a year with four digits, in the order in which it is read. -/
theorem chars_eq {timestamp : Timestamp} (plain : timestamp.HasPlainYear) :
    timestamp.chars =
      Decimal.fixed 4 timestamp.date.year.toNat ++ '-' :: (Decimal.fixed 2 timestamp.date.month ++
        '-' :: (Decimal.fixed 2 timestamp.date.day ++ 'T' ::
          (Decimal.fixed 2 (timestamp.secondOfDay / 3600) ++
            ':' :: (Decimal.fixed 2 (timestamp.secondOfDay / 60 % 60) ++
              ':' :: (Decimal.fixed 2 timestamp.second ++
                '.' :: (Decimal.fixed 3 timestamp.millis ++ 'Z' :: [])))))) := by
  have year : yearText timestamp.date.year = Decimal.fixed 4 timestamp.date.year.toNat :=
    if_pos plain
  simp only [chars, year, List.append_assoc, List.cons_append]

/-- A text has at most as many characters as bytes. -/
theorem length_le_sum_utf8Size (text : List Char) : text.length ≤ (text.map Char.utf8Size).sum := by
  induction text with
  | nil => simp
  | cons c rest induction =>
      have positive := Char.utf8Size_pos c
      simp only [List.length_cons, List.map_cons, List.sum_cons]
      omega

/-- **A timestamp is read back** from its text, cut to whole milliseconds. -/
theorem parseChars_chars {timestamp : Timestamp} (proper : timestamp.IsProper)
    (plain : timestamp.HasPlainYear) :
    parseChars timestamp.chars = .ok timestamp.cutToMillis := by
  -- the text has 24 characters of a byte or more
  have long : ¬(timestamp.chars.map Char.utf8Size).sum < minBytes := by
    have length : timestamp.chars.length = 24 := by
      rw [chars_eq plain]
      simp
    have bytes := length_le_sum_utf8Size timestamp.chars
    unfold minBytes
    omega
  have bound := secondOfDay_lt timestamp
  have date := parseDate_fixed (Calendar.isValid_ofDayNumber (timestamp.seconds / secondsPerDay))
    plain
  have time := parseTime_fixed (show timestamp.secondOfDay / 3600 < 24 by omega)
    (show timestamp.secondOfDay / 60 % 60 < 60 by omega) (second_le proper) (millis_lt timestamp)
  rw [timeOfDay_parts proper] at time
  have separator := oneOf_of_mem (show 'T' ∈ ['T', 't', ' '] by decide)
  have ends : offset ['Z'] = .ok (0, []) := rfl
  have seconds : timestamp.seconds / secondsPerDay * secondsPerDay + timestamp.secondOfDay =
      timestamp.seconds := by
    unfold secondOfDay secondsPerDay
    omega
  rw [parseChars, if_neg long, chars_eq plain, Timestamp.date]
  simp only [date, time, separator, ends, ok_bind, Except.map, Calendar.dayNumber_ofDayNumber]
  have short : Int.natAbs 0 < secondsPerDay := by decide
  rw [if_pos List.isEmpty_nil, if_pos short, seconds, Int.sub_zero]
  rfl

/-- The text of a timestamp is read as the timestamp, cut to milliseconds. -/
theorem parse_render {timestamp : Timestamp} (proper : timestamp.IsProper)
    (plain : timestamp.HasPlainYear) : parse timestamp.render = .ok timestamp.cutToMillis := by
  rw [parse, render, String.toList_ofList]
  exact parseChars_chars proper plain

/-! ## (4) What is read -/

/-- The nanoseconds that are read stay within the second. -/
theorem nanosOfDigits_lt {text : List Char} (digits : ∀ c ∈ text, c.isDigit = true) :
    nanosOfDigits text < nanosPerSecond := by
  have counted : ∀ c ∈ text.take 9, c.isDigit = true :=
    fun c held => digits c (List.mem_of_mem_take held)
  have bound := Decimal.value_lt_of_isDigit counted
  have length : (text.take 9).length ≤ 9 := List.length_take_le 9 text
  calc nanosOfDigits text
      = Decimal.value (text.take 9) * 10 ^ (9 - (text.take 9).length) := rfl
    _ < 10 ^ (text.take 9).length * 10 ^ (9 - (text.take 9).length) :=
        Nat.mul_lt_mul_of_pos_right bound (Nat.pow_pos (by omega))
    _ = nanosPerSecond := by
        rw [← Nat.pow_add, Nat.add_sub_cancel' length]
        rfl

/-- A fraction is less than a second. -/
theorem fraction_lt {text rest : List Char} {nanos : Nat}
    (reads : fraction text = .ok (nanos, rest)) : nanos < nanosPerSecond := by
  unfold fraction at reads
  split at reads
  · next behind =>
      rw [List.span_eq_takeWhile_dropWhile] at reads
      split at reads
      · cases reads
      · cases reads
      · next digits after _ _ same =>
          cases reads
          cases same
          exact nanosOfDigits_lt fun c held => List.mem_takeWhile_imp held
  · cases reads
    decide

/-- The time of day that is read ends in second 59 if it is within a leap second. -/
theorem timeOfDay_bounds {hour minute second nanos seconds total : Nat}
    (reads : timeOfDay hour minute second nanos = .ok (seconds, total))
    (within : nanos < nanosPerSecond) :
    total < 2 * nanosPerSecond ∧ (nanosPerSecond ≤ total → seconds % 60 = 59) := by
  unfold timeOfDay at reads
  split at reads
  · cases reads
  · split at reads
    · cases reads
      omega
    · cases reads
      omega

/-- An offset is a number of whole minutes. -/
theorem offset_mod {text rest : List Char} {seconds : Int}
    (reads : offset text = .ok (seconds, rest)) : seconds % 60 = 0 := by
  unfold offset at reads
  split at reads
  · cases reads
  · split at reads
    · cases reads
      rfl
    · split at reads
      · obtain ⟨⟨minutes, behind⟩, _, same⟩ := bind_eq_ok_iff.mp reads
        cases same
        omega
      · split at reads
        · obtain ⟨⟨minutes, behind⟩, _, same⟩ := bind_eq_ok_iff.mp reads
          cases same
          omega
        · cases reads

/-- Nanoseconds reach a second only in the last second of a minute, and never two. -/
theorem parseTime_bounds {text rest : List Char} {seconds nanos : Nat}
    (reads : parseTime text = .ok ((seconds, nanos), rest)) :
    nanos < 2 * nanosPerSecond ∧ (nanosPerSecond ≤ nanos → seconds % 60 = 59) := by
  unfold parseTime at reads
  obtain ⟨⟨hour, afterHour⟩, _, reads⟩ := bind_eq_ok_iff.mp reads
  obtain ⟨_, _, reads⟩ := bind_eq_ok_iff.mp reads
  obtain ⟨⟨minute, afterMinute⟩, _, reads⟩ := bind_eq_ok_iff.mp reads
  obtain ⟨_, _, reads⟩ := bind_eq_ok_iff.mp reads
  obtain ⟨⟨second, afterSecond⟩, _, reads⟩ := bind_eq_ok_iff.mp reads
  obtain ⟨⟨within, behind⟩, point, reads⟩ := bind_eq_ok_iff.mp reads
  obtain ⟨time, clock, same⟩ := bind_eq_ok_iff.mp reads
  cases same
  exact timeOfDay_bounds clock (fraction_lt point)

/-- **Every timestamp that is read is proper.** -/
theorem isProper_of_parse {text : String} {timestamp : Timestamp}
    (reads : parse text = .ok timestamp) : timestamp.IsProper := by
  unfold parse parseChars at reads
  split at reads
  · cases reads
  · obtain ⟨⟨day, afterDate⟩, _, reads⟩ := bind_eq_ok_iff.mp reads
    obtain ⟨separated, _, reads⟩ := bind_eq_ok_iff.mp reads
    obtain ⟨⟨⟨second, nanos⟩, afterTime⟩, time, reads⟩ := bind_eq_ok_iff.mp reads
    obtain ⟨⟨shift, rest⟩, ends, reads⟩ := bind_eq_ok_iff.mp reads
    obtain ⟨nanosFit, atMinute⟩ := parseTime_bounds time
    have whole := offset_mod ends
    have same : timestamp = ⟨day * secondsPerDay + second - shift, nanos⟩ := by
      simp only at reads
      split at reads
      · split at reads
        · cases reads
          rfl
        · cases reads
      · cases reads
    subst same
    refine ⟨nanosFit, fun leap => ?_⟩
    -- days and offsets are whole minutes, so that the second stays the last one of its minute
    have last := atMinute leap
    show (day * (86400 : Nat) + second - shift) % 60 = 59
    omega

end WireSchema.Timestamp

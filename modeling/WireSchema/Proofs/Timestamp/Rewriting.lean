import WireSchema.Proofs.Timestamp.RoundTrip

/-! # Writing what was read

The text of a timestamp of a year from 0 to 9999 is one of the texts that are written as they are
read (`exists_parse_render`). A text does not tell whether a second 60 is a leap second, and a
second that is counted with too many nanoseconds is written as the second behind it; neither shows
in the text that is written next. Proper timestamps are told by their texts up to the millisecond
(`parse_render_toMillis`). -/

namespace WireSchema.Timestamp

/-- Cutting to whole milliseconds does not show in the text. -/
theorem render_cutToMillis (timestamp : Timestamp) :
    timestamp.cutToMillis.render = timestamp.render := by
  have second : timestamp.cutToMillis.second = timestamp.second := by
    show timestamp.secondOfDay % 60 + timestamp.nanos / 1000000 * 1000000 / 1000000000 =
      timestamp.secondOfDay % 60 + timestamp.nanos / 1000000000
    omega
  have millis : timestamp.cutToMillis.millis = timestamp.millis := by
    show timestamp.nanos / 1000000 * 1000000 % 1000000000 / 1000000 =
      timestamp.nanos % 1000000000 / 1000000
    omega
  have date : timestamp.cutToMillis.date = timestamp.date := rfl
  have secondOfDay : timestamp.cutToMillis.secondOfDay = timestamp.secondOfDay := rfl
  simp only [render, chars, second, millis, date, secondOfDay]

/-- The same instant, counted from the next second on. -/
def fromNextSecond (timestamp : Timestamp) : Timestamp :=
  ⟨timestamp.seconds + 1, timestamp.nanos - nanosPerSecond⟩

/-- Within a minute, an instant of the next second has the same date and minute. -/
theorem date_fromNextSecond {timestamp : Timestamp} (within : timestamp.seconds % 60 ≠ 59) :
    timestamp.fromNextSecond.date = timestamp.date := by
  have sameDay : (timestamp.seconds + 1) / (86400 : Nat) = timestamp.seconds / (86400 : Nat) := by
    omega
  exact congrArg Calendar.Date.ofDayNumber sameDay

/-- One second later in a minute, it is one second later in the day. -/
theorem secondOfDay_fromNextSecond {timestamp : Timestamp} (within : timestamp.seconds % 60 ≠ 59) :
    timestamp.fromNextSecond.secondOfDay = timestamp.secondOfDay + 1 := by
  show ((timestamp.seconds + 1) % (86400 : Nat)).toNat =
    (timestamp.seconds % (86400 : Nat)).toNat + 1
  omega

/-- Nanoseconds beyond the second count for the next one in the text, within a minute. -/
theorem render_fromNextSecond {timestamp : Timestamp} (within : timestamp.seconds % 60 ≠ 59)
    (beyond : nanosPerSecond ≤ timestamp.nanos) :
    timestamp.fromNextSecond.render = timestamp.render := by
  have date := date_fromNextSecond within
  have secondOfDay := secondOfDay_fromNextSecond within
  have atMinute := secondOfDay_mod timestamp
  have hour : (timestamp.secondOfDay + 1) / 3600 = timestamp.secondOfDay / 3600 := by omega
  have minute : (timestamp.secondOfDay + 1) / 60 % 60 = timestamp.secondOfDay / 60 % 60 := by omega
  unfold nanosPerSecond at beyond
  have second : timestamp.fromNextSecond.second = timestamp.second := by
    rw [Timestamp.second, Timestamp.second, secondOfDay]
    show (timestamp.secondOfDay + 1) % 60 + (timestamp.nanos - 1000000000) / 1000000000 =
      timestamp.secondOfDay % 60 + timestamp.nanos / 1000000000
    omega
  have millis : timestamp.fromNextSecond.millis = timestamp.millis := by
    show (timestamp.nanos - 1000000000) % 1000000000 / 1000000 =
      timestamp.nanos % 1000000000 / 1000000
    omega
  simp only [render, chars, date, second, millis, secondOfDay, hour, minute]

/-- **The text of a timestamp is written as it is read.** -/
theorem exists_parse_render {timestamp : Timestamp} (nanos : timestamp.nanos < 2 * nanosPerSecond)
    (plain : timestamp.HasPlainYear) :
    ∃ read, parse timestamp.render = .ok read ∧ read.render = timestamp.render := by
  by_cases proper : timestamp.IsProper
  · exact ⟨_, parse_render proper plain, render_cutToMillis timestamp⟩
  · -- the nanoseconds are too many for a second that is not the last one of its minute
    have untimely : ¬(nanosPerSecond ≤ timestamp.nanos → timestamp.seconds % 60 = 59) :=
      fun leap => proper ⟨nanos, leap⟩
    rw [Classical.not_imp] at untimely
    obtain ⟨beyond, within⟩ := untimely
    have sameText := render_fromNextSecond within beyond
    have nextProper : timestamp.fromNextSecond.IsProper := by
      have fits : timestamp.fromNextSecond.nanos < nanosPerSecond := by
        show timestamp.nanos - nanosPerSecond < nanosPerSecond
        omega
      exact ⟨by omega, fun leap => absurd leap (Nat.not_le.mpr fits)⟩
    have nextPlain : timestamp.fromNextSecond.HasPlainYear := by
      rw [HasPlainYear, date_fromNextSecond within]
      exact plain
    refine ⟨_, sameText ▸ parse_render nextProper nextPlain, ?_⟩
    rw [render_cutToMillis, sameText]

/-- Timestamps agree to the millisecond when they are the same once they are cut. -/
theorem cutToMillis_eq_iff {left right : Timestamp} :
    left.cutToMillis = right.cutToMillis ↔
      left.seconds = right.seconds ∧ left.nanos / 1000000 = right.nanos / 1000000 := by
  simp only [cutToMillis, mk.injEq]
  omega

/-- **Texts tell timestamps to the millisecond.** A timestamp of a year from 0 to 9999, within a
leap second or not, is read back from its text with its nanoseconds cut to whole milliseconds. Two
of them have the same text exactly when they agree to the millisecond. -/
theorem parse_render_toMillis {timestamp : Timestamp} (proper : timestamp.IsProper)
    (plain : timestamp.HasPlainYear) :
    parse timestamp.render = .ok timestamp.cutToMillis ∧
      ∀ other : Timestamp, other.IsProper → other.HasPlainYear →
        (timestamp.render = other.render ↔
          timestamp.seconds = other.seconds ∧
            timestamp.nanos / 1000000 = other.nanos / 1000000) := by
  refine ⟨parse_render proper plain, fun other otherProper otherPlain => ?_⟩
  rw [← cutToMillis_eq_iff]
  constructor
  · intro same
    have read := parse_render proper plain
    rw [same, parse_render otherProper otherPlain] at read
    exact (Except.ok.inj read).symm
  · intro same
    rw [← render_cutToMillis timestamp, same, render_cutToMillis]

/-- A leap second in the last year before 1970 keeps its milliseconds, and so does another reading
within the same millisecond. -/
theorem parse_render_toMillis_leap :
    let leap : Timestamp := ⟨-1, 1123999999⟩
    let other : Timestamp := ⟨-1, 1123000000⟩
    leap.render = "1969-12-31T23:59:60.123Z" ∧ leap.IsProper ∧ leap.HasPlainYear ∧
      other.IsProper ∧ other.HasPlainYear ∧
      parse leap.render = .ok ⟨-1, 1123000000⟩ ∧ leap.render = other.render := by
  intro leap other
  have proper : leap.IsProper := ⟨by decide, fun _ => by decide⟩
  have otherProper : other.IsProper := ⟨by decide, fun _ => by decide⟩
  have plain : leap.HasPlainYear := ⟨by decide, by decide⟩
  have otherPlain : other.HasPlainYear := ⟨by decide, by decide⟩
  have cut : leap.cutToMillis = ⟨-1, 1123000000⟩ := by decide
  obtain ⟨read, told⟩ := parse_render_toMillis proper plain
  rw [cut] at read
  exact ⟨by decide +kernel, proper, plain, otherProper, otherPlain, read,
    (told other otherProper otherPlain).mpr ⟨rfl, by decide⟩⟩

end WireSchema.Timestamp

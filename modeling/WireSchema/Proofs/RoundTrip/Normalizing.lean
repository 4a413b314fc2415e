import WireSchema.Proofs.RoundTrip.Codecs
import WireSchema.Proofs.Timestamp.Rewriting

/-! # The one form of timestamp texts

A text that denotes a timestamp is encoded as the timestamp is, and what is written denotes the
timestamp cut to whole milliseconds and is encoded as it stands, as long as the year has four digits
(`timestampText_normalizes`). An offset may carry a text of year 9999 or year 0 into a year that is
written with a sign, and such a text is read by neither direction. -/

namespace WireSchema

/-! ## (1) Years with a sign -/

namespace Timestamp

/-- A year that does not have four digits is written behind a sign. -/
theorem exists_yearText {year : Int} (far : ¬(0 ≤ year ∧ year ≤ 9999)) :
    ∃ sign digits, yearText year = sign :: digits ∧ sign.isDigit = false := by
  -- either sign is no digit
  refine ⟨_, _, if_neg far, ?_⟩
  split <;> rfl

/-- Texts of timestamps are long enough to be looked at. -/
theorem minBytes_le_chars (timestamp : Timestamp) :
    minBytes ≤ (timestamp.chars.map Char.utf8Size).sum := by
  have bytes := length_le_sum_utf8Size timestamp.chars
  have length : 20 ≤ timestamp.chars.length := by
    simp only [chars, List.length_append, List.length_cons, Decimal.length_fixed, List.length_nil]
    omega
  unfold minBytes
  omega

/-- **A text with a sign in front of its year is not read.** -/
theorem parse_render_of_not_plain {timestamp : Timestamp} (far : ¬timestamp.HasPlainYear) :
    parse timestamp.render = .error .invalid := by
  obtain ⟨sign, digits, signed, noDigit⟩ := exists_yearText far
  obtain ⟨behind, text⟩ : ∃ behind, timestamp.chars = sign :: behind := by
    rw [chars, signed]
    exact ⟨_, rfl⟩
  have fails : parseDate (sign :: behind) = .error .invalid := by
    have first : digit sign = .error .invalid := by
      rw [digit, if_neg (by simp [noDigit])]
    rw [parseDate, Timestamp.digits, digitsAfter, first]
    rfl
  have long : ¬((sign :: behind).map Char.utf8Size).sum < minBytes := by
    rw [← text]
    exact Nat.not_lt.mpr (minBytes_le_chars timestamp)
  rw [parse, render, String.toList_ofList, text, parseChars, if_neg long, fails]
  rfl

end Timestamp

/-! ## (2) Writing what was read -/

namespace Conversion

/-- The error of a text with a character that does not belong there. -/
def invalidText (text : String) : TranscodingError :=
  ⟨"", .conversionFailed timestampText.name
    s!"`{text}` is not an RFC 3339 timestamp: {Timestamp.ParseError.invalid.message}"⟩

section Texts

variable {text : String} {timestamp : Timestamp}

/-- A text is decoded into the timestamp that it denotes, and into no other one. -/
theorem decode_timestampText_iff :
    timestampText.decode (.string text) = .ok (.date timestamp) ↔
      Timestamp.parse text = .ok timestamp := by
  show (readTimestamp text).map Value.date = _ ↔ _
  rw [map_eq_ok_iff]
  simp [readTimestamp_eq_ok_iff]

/-- A text is encoded as the timestamp that it denotes. -/
theorem encode_timestampText (denotes : Timestamp.parse text = .ok timestamp) :
    timestampText.encode (.string text) = .ok (.string timestamp.render) := by
  show (readTimestamp text).map _ = _
  rw [readTimestamp_eq_ok_iff.mpr denotes]
  rfl

/-- A text with a character that does not belong there is rejected in both directions. -/
theorem timestampText_of_invalid (rejects : Timestamp.parse text = .error .invalid) :
    timestampText.decode (.string text) = .error (invalidText text) ∧
      timestampText.encode (.string text) = .error (invalidText text) := by
  have rejected : readTimestamp text = .error (invalidText text) := by
    rw [readTimestamp, rejects]
    rfl
  constructor
  · show (readTimestamp text).map _ = _
    rw [rejected]
    rfl
  · show (readTimestamp text).map _ = _
    rw [rejected]
    rfl

end Texts

/-- **Timestamp texts are normalized**: a text and the timestamp that it denotes are written alike,
and if the year has four digits, what is written denotes the timestamp cut to whole milliseconds and
stays as it is when it is written again. With another year it is rejected both times. -/
theorem timestampText_normalizes {text : String} {timestamp : Timestamp}
    (reads : timestampText.decode (.string text) = .ok (.date timestamp)) :
    timestampText.encode (.string text) = .ok (.string timestamp.render) ∧
      timestampText.encode (.date timestamp) = .ok (.string timestamp.render) ∧
      (timestamp.HasPlainYear →
        timestampText.decode (.string timestamp.render) = .ok (.date timestamp.cutToMillis) ∧
        timestampText.encode (.string timestamp.render) = .ok (.string timestamp.render)) ∧
      (¬timestamp.HasPlainYear →
        timestampText.decode (.string timestamp.render) = .error (invalidText timestamp.render) ∧
        timestampText.encode (.string timestamp.render) =
          .error (invalidText timestamp.render)) := by
  have denotes := decode_timestampText_iff.mp reads
  refine ⟨encode_timestampText denotes, rfl, fun plain => ?_,
    fun far => timestampText_of_invalid (Timestamp.parse_render_of_not_plain far)⟩
  -- what is written is a timestamp again, as its year is plain
  have back := Timestamp.parse_render (Timestamp.isProper_of_parse denotes) plain
  refine ⟨decode_timestampText_iff.mpr back, ?_⟩
  rw [encode_timestampText back, Timestamp.render_cutToMillis]

/-- A leap second with an offset and a fraction is written in universal time with milliseconds. -/
theorem timestampText_normalizes_leap :
    let text := "2017-01-01t00:59:60.1239+01:00"
    let leap : Timestamp := ⟨1483228799, 1123900000⟩
    timestampText.decode (.string text) = .ok (.date leap) ∧ leap.HasPlainYear ∧
      leap.render = "2016-12-31T23:59:60.123Z" ∧
      timestampText.encode (.string text) = .ok (.string leap.render) ∧
      timestampText.decode (.string leap.render) = .ok (.date leap.cutToMillis) ∧
      timestampText.encode (.string leap.render) = .ok (.string leap.render) := by
  intro text leap
  have reads : timestampText.decode (.string text) = .ok (.date leap) := by decide +kernel
  have plain : leap.HasPlainYear := by
    have year : leap.date.year = 2016 := by decide +kernel
    rw [Timestamp.HasPlainYear, year]
    decide
  obtain ⟨writes, _, back, _⟩ := timestampText_normalizes reads
  exact ⟨reads, plain, by decide +kernel, writes, back plain⟩

/-- The last second of year 9999 one hour west is written with a year of five digits, which is
rejected. -/
theorem exists_written_unread :
    let text := "9999-12-31T23:59:59-01:00"
    let last : Timestamp := ⟨253402304399, 0⟩
    let written := "+10000-01-01T00:59:59.000Z"
    timestampText.decode (.string text) = .ok (.date last) ∧
      timestampText.encode (.string text) = .ok (.string written) ∧
      timestampText.decode (.string written) = .error (invalidText written) ∧
      timestampText.encode (.string written) = .error (invalidText written) := by
  intro text last written
  have denotes : Timestamp.parse "9999-12-31T23:59:59-01:00" = .ok ⟨253402304399, 0⟩ := rfl
  have written' : last.render = written := by decide +kernel
  have rejects : Timestamp.parse written = .error .invalid := by decide +kernel
  refine ⟨decode_timestampText_iff.mpr denotes, ?_, timestampText_of_invalid rejects⟩
  rw [encode_timestampText denotes, written']

end Conversion

end WireSchema

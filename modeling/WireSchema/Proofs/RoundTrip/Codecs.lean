import WireSchema.Proofs.RoundTrip.Returning
import WireSchema.Proofs.Timestamp.RoundTrip

/-! # Codecs there and back

What the two codecs of schema documents make of a value and of what they have made of it. Timestamps
come back from their texts cut to whole milliseconds, and texts come back from their timestamps in
the one form that timestamps are written in. Truth values come back from two different texts, and
texts from their truth values always. -/

namespace WireSchema

/-! ## (1) Timestamps of values -/

/-- The timestamp that a value stands for: itself, or the one that its text denotes. -/
def Value.timestamp? : Value → Option Timestamp
  | .date timestamp => some timestamp
  | .string text => (Timestamp.parse text).toOption
  | _ => none

/-- The timestamp that a value stands for, cut to whole milliseconds; what stands for none stays. -/
def Value.cutToMillis (value : Value) : Value :=
  match value.timestamp? with
  | some timestamp => .date timestamp.cutToMillis
  | none => value

/-- The text of a timestamp, as timestamps are written; what is no text of a timestamp stays. -/
def Value.rewritten : Value → Value
  | .string text =>
      match Timestamp.parse text with
      | .ok timestamp => .string timestamp.render
      | .error _ => .string text
  | value => value

/-- A conversion reads a timestamp exactly if the text is one. -/
theorem Conversion.readTimestamp_eq_ok_iff {text : String} {timestamp : Timestamp} :
    readTimestamp text = .ok timestamp ↔ Timestamp.parse text = .ok timestamp := by
  rw [readTimestamp]
  cases Timestamp.parse text <;> simp

/-- Values are written as the timestamps that they stand for. -/
theorem Conversion.encodeTimestamp_eq_ok_iff {value written : Value} :
    encodeTimestamp value = .ok written ↔
      ∃ timestamp, value.timestamp? = some timestamp ∧ .string timestamp.render = written := by
  cases value with
  | date timestamp => simp [encodeTimestamp, Value.timestamp?]
  | string text =>
      rw [encodeTimestamp, Value.timestamp?, map_eq_ok_iff]
      simp only [readTimestamp_eq_ok_iff, toOption_eq_some_iff]
  | _ => simp [encodeTimestamp, Value.timestamp?]

/-- Timestamps are read from the texts that denote them. -/
theorem Conversion.decodeTimestamp_eq_ok_iff {value written : Value} :
    decodeTimestamp value = .ok written ↔
      ∃ text timestamp, value = .string text ∧ Timestamp.parse text = .ok timestamp ∧
        .date timestamp = written := by
  cases value with
  | string text =>
      rw [decodeTimestamp, map_eq_ok_iff]
      simp [readTimestamp_eq_ok_iff]
  | _ => simp [decodeTimestamp]

/-! ## (2) Codecs of leaves -/

namespace Schema

variable {direction : Direction} {stamp : Value → Value}

/-- A codec between leaves does what its conversion does. -/
theorem outcome?_codec_leaf (direction : Direction) (source target : LeafType)
    (conversion : Conversion) (value : Value) :
    (Schema.codec (.leaf source) (.leaf target) conversion).outcome? direction value =
      (conversion.run direction value).toOption := by
  rw [outcome?, transcode, transcodeAt_codec_leaf, toOption_mapError]

/-- A value comes back from a codec between leaves when it does from the conversion. -/
theorem returns_codec_leaf {source target : LeafType} {conversion : Conversion} {value : Value}
    (comesBack : ∀ written, conversion.run direction value = .ok written →
      conversion.run direction.opposite written = .ok
        ((Schema.codec (.leaf source) (.leaf target) conversion).tidied direction.inputSide stamp
          value)) :
    Returns direction stamp (.codec (.leaf source) (.leaf target) conversion) value := by
  intro written crosses
  have plain : (Schema.codec (.leaf source) (.leaf target) conversion).renamed =
      .codec (.leaf source) (.leaf target) conversion := rfl
  rw [plain, outcome?_codec_leaf, toOption_eq_some_iff] at crosses
  refine ⟨_, ?_, .refl _⟩
  rw [plain, outcome?_codec_leaf, comesBack written crosses]
  rfl

/-! ## (3) Timestamps -/

/-- A timestamp comes back from its text, cut to whole milliseconds. -/
theorem returns_timestampText_encode {value : Value}
    (proper : ∀ timestamp, value = .date timestamp → timestamp.IsProper)
    (plain : ∀ timestamp, value.timestamp? = some timestamp → timestamp.HasPlainYear) :
    Returns .encode Value.cutToMillis timestampText value := by
  apply returns_codec_leaf
  intro written encodes
  obtain ⟨timestamp, stands, rfl⟩ := Conversion.encodeTimestamp_eq_ok_iff.mp encodes
  -- a timestamp that was read from a text is proper anyway
  have isProper : timestamp.IsProper := by
    cases value with
    | date inner =>
        cases stands
        exact proper _ rfl
    | string text => exact Timestamp.isProper_of_parse (toOption_eq_some_iff.mp stands)
    | _ => cases stands
  have reads := Timestamp.parse_render isProper (plain timestamp stands)
  have readBack := Conversion.decodeTimestamp_eq_ok_iff.mpr ⟨_, _, rfl, reads, rfl⟩
  refine readBack.trans (congrArg Except.ok (Eq.trans ?_ (tidied_timestampText value).symm))
  rw [Value.cutToMillis, stands]

/-- The text of a timestamp comes back as timestamps are written. -/
theorem returns_timestampText_decode (value : Value) :
    Returns .decode Value.rewritten timestampText value := by
  apply returns_codec_leaf
  intro written decodes
  obtain ⟨text, timestamp, rfl, reads, rfl⟩ := Conversion.decodeTimestamp_eq_ok_iff.mp decodes
  have writes : Conversion.encodeTimestamp (.date timestamp) = .ok (.string timestamp.render) := rfl
  refine writes.trans (congrArg Except.ok (Eq.trans ?_ (tidied_timestampText _).symm))
  rw [Value.rewritten, reads]

/-! ## (4) Truth values -/

/-- A truth value comes back from its text when the two texts differ. -/
theorem returns_booleanText_encode {truthy falsy : String} (different : truthy ≠ falsy)
    (value : Value) : Returns .encode stamp (booleanText truthy falsy) value := by
  apply returns_codec_leaf
  intro written encodes
  refine Eq.trans ?_ (congrArg Except.ok (tidied_booleanText truthy falsy value).symm)
  cases value with
  | bool truth =>
      cases encodes
      show Conversion.decodeBoolean truthy falsy (.string _) = _
      cases truth with
      | true => simp [Conversion.decodeBoolean]
      | false => simp [Conversion.decodeBoolean, different.symm]
  | _ => cases encodes

/-- The text of a truth value comes back, also when both truth values have the same text. -/
theorem returns_booleanText_decode (truthy falsy : String) (value : Value) :
    Returns .decode stamp (booleanText truthy falsy) value := by
  apply returns_codec_leaf
  intro written decodes
  refine Eq.trans ?_ (congrArg Except.ok (tidied_booleanText truthy falsy value).symm)
  cases value with
  | string text =>
      change Conversion.decodeBoolean truthy falsy (.string text) = _ at decodes
      rw [Conversion.decodeBoolean] at decodes
      split at decodes
      · next isTruthy =>
          cases decodes
          rw [isTruthy]
          rfl
      · split at decodes
        · next isFalsy =>
            cases decodes
            rw [isFalsy]
            rfl
        · cases decodes
  | _ => cases decodes

/-! ## (5) Documented schemas -/

section Documented

variable {schema applied : Schema} (documented : schema.Documented)
  (applies : schema.applyRenames = .ok applied) {value : Value} (distinct : value.HasDistinctKeys)

include documented applies distinct

/-- **What a documented schema encodes comes back**, if its truth values have two different texts
and timestamps are proper and of a plain year. -/
theorem returns_encode_of_documented
    (different : ∀ truthy falsy, .booleanText truthy falsy ∈ schema.parts true → truthy ≠ falsy)
    (proper : ∀ timestamp, Place .decoded schema value timestampText (.date timestamp) →
      timestamp.IsProper)
    (plain : ∀ inner timestamp, Place .decoded schema value timestampText inner →
      inner.timestamp? = some timestamp → timestamp.HasPlainYear) :
    Returns .encode Value.cutToMillis schema value := by
  refine returns_of_documented documented applies distinct ?_ ?_
  · intro inner place
    refine returns_timestampText_encode ?_ fun timestamp => plain inner timestamp place
    rintro timestamp rfl
    exact proper timestamp place
  · intro truthy falsy inner place
    -- the codec stands in the schema, since it is not the unknown type
    rcases place.mem_parts with isUnknown | part
    · cases isUnknown
    · exact returns_booleanText_encode (different truthy falsy part) inner

/-- **What a documented schema decodes comes back**. -/
theorem returns_decode_of_documented : Returns .decode Value.rewritten schema value :=
  returns_of_documented documented applies distinct
    (fun inner _ => returns_timestampText_decode inner)
    fun truthy falsy inner _ => returns_booleanText_decode truthy falsy inner

end Documented

end Schema

end WireSchema

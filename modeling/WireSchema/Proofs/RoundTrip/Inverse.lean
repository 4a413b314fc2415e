import WireSchema.Proofs.RoundTrip.Codecs

/-! # Decoding and encoding undo each other

With the renames of a documented schema applied, decoding undoes encoding and encoding undoes
decoding, up to the order of members: what comes back is the value without the undeclared keys of
closed structs, with its timestamps cut to whole milliseconds or written in their one form. Neither
run fails where the other one has succeeded. -/

namespace WireSchema.Schema

open Value

/-! ## (1) From the decoded side and back -/

/-- **Decoding undoes encoding**, where the texts of truth values differ and the timestamps are of
years with four digits. -/
theorem decode_encode {document : SchemaDocument} {schema applied : Schema}
    (describes : document.toSchema = .ok schema) (applies : schema.applyRenames = .ok applied)
    (different : ∀ truthy falsy, .booleanText truthy falsy ∈ schema.parts true → truthy ≠ falsy)
    {value written : Value} (distinct : value.HasDistinctKeys)
    (proper : ∀ timestamp, Place .decoded schema value timestampText (.date timestamp) →
      timestamp.IsProper)
    (plain : ∀ inner timestamp, Place .decoded schema value timestampText inner →
      inner.timestamp? = some timestamp → timestamp.HasPlainYear)
    (encodes : applied.encode value = .ok written) :
    ∃ back, applied.decode written = .ok back ∧
      SameUpToOrder back (schema.tidied .decoded Value.cutToMillis value) ∧
      (schema.ExactlyKeyed .decoded value →
        (∀ inner, Place .decoded schema value timestampText inner →
          ∃ timestamp, inner = .date timestamp ∧ timestamp.cutToMillis = timestamp) →
        SameUpToOrder back value) := by
  have documented := SchemaDocument.documented_of_toSchema describes
  have returns : Returns .encode Value.cutToMillis schema value :=
    returns_encode_of_documented documented applies distinct different proper plain
  rw [← renamed_of_applyRenames applies] at encodes ⊢
  obtain ⟨back, decodes, same⟩ := returns written (toOption_eq_some_iff.mpr encodes)
  refine ⟨back, toOption_eq_some_iff.mp decodes, same, fun keyed stamped => ?_⟩
  -- exactly keyed values with whole milliseconds have nothing to tidy
  have tidy : schema.tidied .decoded Value.cutToMillis value = value := by
    refine tidied_eq_self documented distinct ⟨keyed, ?_⟩
    intro inner place
    obtain ⟨timestamp, rfl, whole⟩ := stamped inner place
    exact congrArg Value.date whole
  rw [Direction.inputSide, tidy] at same
  exact same

/-- An order with a renamed timestamp comes back from its encoded side, and so does the note besides
it. -/
theorem decode_encode_order :
    let document : SchemaDocument := .struct
      [⟨"placed", .timestampText, false, false, some "at", []⟩,
        ⟨"paid", .booleanText "Y" "N", true, false, none, []⟩] (some ⟨none, .leaf .unknown, false⟩)
    let order : Schema := .struct
      [⟨"placed", timestampText, false, false, some "at", []⟩,
        ⟨"paid", booleanText "Y" "N", true, false, none, []⟩]
      (some ⟨.string, .leaf .unknown, false⟩)
    let value : Value := .object [("note", .null), ("placed", .date ⟨0, 1500000⟩)]
    let written : Value := .object [("at", .string "1970-01-01T00:00:00.001Z"), ("note", .null)]
    document.toSchema = .ok order ∧ order.renamed.encode value = .ok written ∧
      ∃ back, order.renamed.decode written = .ok back ∧
        SameUpToOrder back (order.tidied .decoded Value.cutToMillis value) ∧
        (order.ExactlyKeyed .decoded value →
          (∀ inner, Place .decoded order value timestampText inner →
            ∃ timestamp, inner = .date timestamp ∧ timestamp.cutToMillis = timestamp) →
          SameUpToOrder back value) := by
  intro document order value written
  have describes : document.toSchema = .ok order := rfl
  have encodes : order.renamed.encode value = .ok written := rfl
  have different : ∀ truthy falsy,
      booleanText truthy falsy ∈ order.parts true → truthy ≠ falsy := by
    intro truthy falsy part
    simp [order, parts, partsOfFields, partsOfIndex, timestampText, booleanText] at part
    rw [part.1, part.2]
    decide
  have distinct : value.HasDistinctKeys := by
    simp [value, HasDistinctKeys, MembersHaveDistinctKeys, Members.keys]
  have onlyPlace : ∀ inner, Place .decoded order value timestampText inner →
      inner = .date ⟨0, 1500000⟩ := by
    intro inner place
    simp only [order, value] at place
    cases place with
    | @member _ _ _ key _ _ _ found below =>
        simp only [Members.find?] at found
        by_cases note : "note" = key
        · subst note
          cases found
          cases below
        · rw [if_neg note] at found
          obtain ⟨placed, found⟩ := Option.ite_none_right_eq_some.mp found
          subst placed
          cases found
          cases below
          rfl
  refine ⟨describes, encodes, decode_encode describes rfl different distinct ?_ ?_ encodes⟩
  · intro timestamp place
    cases onlyPlace _ place
    exact ⟨by decide, by decide⟩
  · intro inner timestamp place stands
    cases onlyPlace _ place
    cases stands
    exact ⟨by decide, by decide⟩

/-! ## (2) From the encoded side and back -/

/-- **Encoding undoes decoding.** What has been decoded can be encoded, also where both truth values
have the same text and whatever the years of timestamps. -/
theorem encode_decode {document : SchemaDocument} {schema applied : Schema}
    (describes : document.toSchema = .ok schema) (applies : schema.applyRenames = .ok applied)
    {written value : Value} (distinct : written.HasDistinctKeys)
    (decodes : applied.decode written = .ok value) :
    ∃ back, applied.encode value = .ok back ∧
      SameUpToOrder back (schema.tidied .encoded Value.rewritten written) ∧
      (schema.ExactlyKeyed .encoded written →
        (∀ text timestamp, Place .encoded schema written timestampText (.string text) →
          Timestamp.parse text = .ok timestamp → timestamp.render = text) →
        SameUpToOrder back written) := by
  have documented := SchemaDocument.documented_of_toSchema describes
  have returns : Returns .decode Value.rewritten schema written :=
    returns_decode_of_documented documented applies distinct
  rw [← renamed_of_applyRenames applies] at decodes ⊢
  obtain ⟨back, encodes, same⟩ := returns value (toOption_eq_some_iff.mpr decodes)
  refine ⟨back, toOption_eq_some_iff.mp encodes, same, fun keyed canonical => ?_⟩
  have tidy : schema.tidied .encoded Value.rewritten written = written := by
    refine tidied_eq_self documented distinct ⟨keyed, ?_⟩
    intro inner place
    cases inner with
    | string text =>
        rw [Value.rewritten]
        cases reads : Timestamp.parse text with
        | ok timestamp => exact congrArg Value.string (canonical text timestamp place reads)
        | error _ => rfl
    | _ => rfl
  rw [Direction.inputSide, tidy] at same
  exact same

/-- An order whose timestamp is written with an offset comes back from its decoded side. -/
theorem encode_decode_order :
    let document : SchemaDocument := .struct
      [⟨"placed", .timestampText, false, false, some "at", []⟩,
        ⟨"paid", .booleanText "Y" "Y", true, false, none, []⟩] none
    let order : Schema := .struct
      [⟨"placed", timestampText, false, false, some "at", []⟩,
        ⟨"paid", booleanText "Y" "Y", true, false, none, []⟩] none
    let written : Value := .object
      [("paid", .string "Y"), ("at", .string "1970-01-01T01:00:00+01:00"), ("note", .null)]
    let value : Value := .object [("placed", .date ⟨0, 0⟩), ("paid", .bool true)]
    document.toSchema = .ok order ∧ order.renamed.decode written = .ok value ∧
      ∃ back, order.renamed.encode value = .ok back ∧
        SameUpToOrder back (order.tidied .encoded Value.rewritten written) ∧
        (order.ExactlyKeyed .encoded written →
          (∀ text timestamp, Place .encoded order written timestampText (.string text) →
            Timestamp.parse text = .ok timestamp → timestamp.render = text) →
          SameUpToOrder back written) := by
  intro document order written value
  have describes : document.toSchema = .ok order := rfl
  have decodes : order.renamed.decode written = .ok value := by decide +kernel
  have distinct : written.HasDistinctKeys := by
    simp [written, HasDistinctKeys, MembersHaveDistinctKeys, Members.keys]
  exact ⟨describes, decodes, encode_decode describes rfl distinct decodes⟩

end WireSchema.Schema

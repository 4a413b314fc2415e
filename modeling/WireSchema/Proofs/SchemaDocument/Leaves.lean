import WireSchema.Proofs.SchemaDocument.Records
import WireSchema.SchemaDocument.Reader

/-! # Reading leaves and conversions

The parts of schema documents without schemas inside: leaf kinds and conversions are alternatives,
and the two texts of truth values are a record in which other members are skipped. -/

namespace WireSchema.SchemaDocument

open Json (Written Piece Location)
open Json.Written (Shows ShowItems ShowMembers)
open Members

variable {levels : Nat} {location : Location}

/-! ## (1) Leaves -/

/-- A name is that of a plain kind, which is not `named`. -/
theorem plainLeaf?_eq_some_iff {name : String} {kind : LeafType} :
    plainLeaf? name = some kind ↔ name = kind.name ∧ ∀ text, kind ≠ .named text := by
  constructor
  · intro isPlain
    unfold plainLeaf? at isPlain
    split at isPlain <;> cases isPlain <;> exact ⟨rfl, nofun⟩
  · rintro ⟨rfl, notNamed⟩
    cases kind with
    | named text => exact absurd rfl (notNamed text)
    | _ => rfl

/-- The only name among those of leaves that is not plain is `named`. -/
theorem mem_leafNames_iff_of_eq_none {name : String} (notPlain : plainLeaf? name = none) :
    name ∈ leafNames ↔ name = "named" := by
  constructor
  · intro known
    simp only [leafNames, List.mem_cons, List.not_mem_nil, or_false] at known
    rcases known with rfl | rfl | rfl | rfl | rfl | rfl | rfl
    case inr.inr.inr.inr.inr.inr => rfl
    all_goals cases notPlain
  · rintro rfl
    simp [leafNames]

/-- A text spells a leaf exactly if it is the name of a plain kind. -/
theorem leafIsSpelledBy_string_iff {name : String} {kind : LeafType} :
    LeafIsSpelledBy kind (.string name) ↔ plainLeaf? name = some kind := by
  rw [plainLeaf?_eq_some_iff]
  cases kind <;> simp [LeafIsSpelledBy, IsUnitVariant, IsVariant]

/-- An object spells a leaf exactly if it has one member, which is the name of a plain kind with
null or `named` with a text. -/
theorem leafIsSpelledBy_object_iff {name : String} {content : Json} {rest : List (String × Json)}
    {kind : LeafType} :
    LeafIsSpelledBy kind (.object ((name, content) :: rest)) ↔ rest = [] ∧
      ((plainLeaf? name = some kind ∧ content = .null) ∨
        (name = "named" ∧ ∃ text, content = .string text ∧ .named text = kind)) := by
  rw [plainLeaf?_eq_some_iff]
  cases kind <;>
    simp only [LeafIsSpelledBy, isUnitVariant_object_iff, isVariant_object_iff, TextIsSpelledBy] <;>
    simp [and_comm, and_left_comm, and_assoc]

/-- The names of the plain kinds are among those of leaves. -/
theorem mem_leafNames_of_plainLeaf? {name : String} {kind : LeafType}
    (isPlain : plainLeaf? name = some kind) : name ∈ leafNames := by
  obtain ⟨rfl, notNamed⟩ := plainLeaf?_eq_some_iff.mp isPlain
  cases kind with
  | named text => exact absurd rfl (notNamed text)
  | _ => simp [leafNames, LeafType.name]

/-- A leaf kind is an alternative. -/
theorem reads_leaf : Reads levels (readLeaf levels) LeafIsSpelledBy := by
  intro location written json shown shallow kind
  cases shown with
  | @string pieces name spells =>
      simp only [readLeaf, bind_eq_ok_iff, readVariant_eq_ok_iff spells, leafIsSpelledBy_string_iff]
      -- a name alone spells a plain kind, or it lacks the text of `named`
      cases plain : plainLeaf? name with
      | some own =>
          have known := mem_leafNames_of_plainLeaf? plain
          simp [plain, known, pure_eq_ok_iff]
      | none => simp [plain, contentMissing_ne_ok]
  | @object members values shown =>
      obtain ⟨inner, enters, shallow⟩ := Json.depth_object_le_iff.mp shallow
      cases shown with
      | nil =>
          simp only [readLeaf, bind_eq_ok_iff, noVariant_closed_ne_ok]
          cases kind <;> simp [LeafIsSpelledBy, IsUnitVariant, IsVariant]
      | @cons pieces name _ content _ rest spells first others =>
          simp only [readLeaf, readAlternative_eq_ok_iff spells first enters,
            leafIsSpelledBy_object_iff]
          cases plain : plainLeaf? name with
          | some own =>
              have known := mem_leafNames_of_plainLeaf? plain
              -- `named` is no plain kind, so only one of the two alternatives is left
              have notNamed : name ≠ "named" := by
                rintro rfl
                cases plain
              simp only [leaveAlternative_eq_ok_iff others, map_eq_ok_iff,
                readUnit_eq_ok_iff first, exists_const, known, notNamed, Option.some.injEq]
              tauto
          | none =>
              simp only [leaveAlternative_eq_ok_iff others, map_eq_ok_iff,
                reads_text _ _ _ first le_rfl, TextIsSpelledBy,
                mem_leafNames_iff_of_eq_none plain, reduceCtorEq, false_and, false_or]
              tauto
  | _ =>
      simp only [readLeaf, notVariant_ne_ok]
      cases kind <;> simp [LeafIsSpelledBy, IsUnitVariant, IsVariant]

/-- Null spells no text. -/
theorem textIsSpelledBy_ne_null (text : String) : ¬TextIsSpelledBy text .null := nofun

/-- A text, or null for none, is read as it is spelled. -/
theorem reads_optionalText : Reads levels readOptionalText (OrNull TextIsSpelledBy) :=
  reads_orNull reads_text textIsSpelledBy_ne_null

/-- Null spells no leaf. -/
theorem leafIsSpelledBy_ne_null (kind : LeafType) : ¬LeafIsSpelledBy kind .null := by
  cases kind <;> simp [LeafIsSpelledBy, IsUnitVariant, IsVariant]

/-- A leaf, or null for none, is read as it is spelled. -/
theorem reads_optionalLeaf :
    Reads levels (readOptionalLeaf levels) (OrNull LeafIsSpelledBy) :=
  reads_orNull reads_leaf leafIsSpelledBy_ne_null

/-! ## (2) Conversions -/

/-- The members of the record of two texts settle both; the others are skipped. -/
theorem readBooleanMembers_eq_ok_iff {members : List (List Piece × Written)}
    {values : List (String × Json)} (shown : ShowMembers members values)
    {truthy falsy : Option String} {texts : String × String} :
    readBooleanMembers location members .closed truthy falsy = .ok texts ↔
      Settles TextIsSpelledBy (fun _ => False) truthy (valuesOf values "true") texts.1 ∧
        Settles TextIsSpelledBy (fun _ => False) falsy (valuesOf values "false") texts.2 := by
  induction values generalizing members truthy falsy with
  | nil =>
      cases shown
      obtain ⟨ownTruthy, ownFalsy⟩ := texts
      simp only [readBooleanMembers, recordEnd_closed, ok_bind, valuesOf_nil, bind_eq_ok_iff,
        required_eq_ok_iff TextIsSpelledBy, pure_eq_ok_iff, Prod.mk.injEq]
      simp
  | cons value rest induction =>
      cases shown with | @cons pieces name written json _ _ spells first others
      rw [readBooleanMembers, readName_eq_ok spells, ok_bind]
      split
      case h_1 =>
        rw [readMember_eq_ok_iff reads_text first le_rfl]
        simp only [induction others, valuesOf_cons, String.reduceEq, reduceIte, settles_cons_iff]
        tauto
      case h_2 =>
        rw [readMember_eq_ok_iff reads_text first le_rfl]
        simp only [induction others, valuesOf_cons, String.reduceEq, reduceIte, settles_cons_iff]
        tauto
      case h_3 _ notTruthy notFalsy =>
        rw [valuesOf_cons, if_neg notTruthy, valuesOf_cons, if_neg notFalsy, ← induction others]
        simp [bind_eq_ok_iff, enterMember_eq_ok_iff first, ofJson_eq_ok_iff, skip_eq_ok first]

/-- Values settle a text that has to be there exactly if it is the only one. -/
theorem settles_text_iff {values : List Json} {text : String} :
    Settles TextIsSpelledBy (fun _ => False) none values text ↔ values = [.string text] := by
  match values with
  | [] => simp [Settles]
  | [json] => simp [Settles, TextIsSpelledBy]
  | _ :: _ :: _ => simp [Settles]

/-- The record of two texts is read, whatever other members it has. -/
theorem reads_boolean : Reads levels (readBoolean levels) fun texts =>
    BooleanIsSpelledBy texts.1 texts.2 := by
  intro location written json shown shallow texts
  obtain ⟨truthy, falsy⟩ := texts
  cases shown with
  | @object members values shown =>
      obtain ⟨inner, enters, _⟩ := Json.depth_object_le_iff.mp shallow
      simp only [readBoolean, enter_bind_eq_ok_iff enters, readBooleanMembers_eq_ok_iff shown,
        settles_text_iff]
      simp [BooleanIsSpelledBy]
  | @array items values shown =>
      obtain ⟨inner, enters, _⟩ := Json.depth_array_le_iff.mp shallow
      match shown with
      | .nil => simp [readBoolean, bind_eq_ok_iff, positionMissing_ne_ok, BooleanIsSpelledBy]
      | .cons _ .nil =>
          simp [readBoolean, bind_eq_ok_iff, positionMissing_ne_ok, BooleanIsSpelledBy]
      | .cons first (.cons second rest) =>
          simp only [readBoolean, enter_bind_eq_ok_iff enters, bind_eq_ok_iff,
            reads_text _ _ _ first le_rfl, reads_text _ _ _ second le_rfl,
            positionsEnd_eq_ok_iff rest, pure_eq_ok_iff, TextIsSpelledBy]
          simp [BooleanIsSpelledBy]
  | _ => simp [readBoolean, wrongType_ne_ok, BooleanIsSpelledBy]

/-- Which documents conversions describe. -/
def CodecIsSpelledBy (document : SchemaDocument) (json : Json) : Prop :=
  (timestampText = document ∧ IsUnitVariant "date-from-string" json) ∨
    ∃ texts : String × String, booleanText texts.1 texts.2 = document ∧
      IsVariant "boolean-from-literal" (BooleanIsSpelledBy texts.1 texts.2) json

/-- A conversion is an alternative. -/
theorem reads_codec : Reads levels (readCodec levels) CodecIsSpelledBy := by
  intro location written json shown shallow document
  cases shown with
  | @string pieces name spells =>
      simp only [readCodec, bind_eq_ok_iff, readVariant_eq_ok_iff spells]
      by_cases isDate : name = "date-from-string"
      · subst isDate
        simp only [if_true, pure_eq_ok_iff, and_assoc, exists_and_left, exists_eq_left']
        simp [codecNames, CodecIsSpelledBy, IsUnitVariant, IsVariant]
      · simp [isDate, CodecIsSpelledBy, IsUnitVariant, IsVariant, contentMissing_ne_ok]
  | @object members values shown =>
      obtain ⟨inner, enters, shallow⟩ := Json.depth_object_le_iff.mp shallow
      cases shown with
      | nil =>
          simp [readCodec, bind_eq_ok_iff, noVariant_closed_ne_ok, CodecIsSpelledBy, IsUnitVariant,
            IsVariant]
      | @cons pieces name _ content _ rest spells first others =>
          rw [List.forall_mem_cons] at shallow
          simp only [readCodec, readAlternative_eq_ok_iff spells first enters, CodecIsSpelledBy,
            isUnitVariant_object_iff, isVariant_object_iff]
          by_cases isDate : name = "date-from-string"
          · subst isDate
            have known : "date-from-string" ∈ codecNames := by decide
            simp only [if_true, leaveAlternative_eq_ok_iff others, map_eq_ok_iff,
              readUnit_eq_ok_iff first, exists_const, known, String.reduceEq]
            tauto
          · have known : name ∈ codecNames ↔ name = "boolean-from-literal" := by
              simp [codecNames, isDate]
            simp only [isDate, if_false, leaveAlternative_eq_ok_iff others, map_eq_ok_iff,
              reads_boolean _ _ _ first shallow.1, known]
            tauto
  | _ => simp [readCodec, notVariant_ne_ok, CodecIsSpelledBy, IsUnitVariant, IsVariant]

end WireSchema.SchemaDocument

import WireSchema.Proofs.SchemaDocument.Structs

/-! # Reading schema documents

The reader of schema documents accepts exactly their grammar: the schemas of a text that starts with
a JSON document are those of the schema documents that this document spells (`parse_eq_ok_iff`). -/

namespace WireSchema.SchemaDocument

open Json (Written Piece Location)
open Json.Written (Shows ShowItems ShowMembers)
open Members

/-! ## (1) Schemas -/

/-- What is spelled by an object is an alternative with its content. -/
theorem isSpelledBy_object_iff {document : SchemaDocument} {name : String} {content : Json}
    {rest : List (String × Json)} :
    document.IsSpelledBy (.object ((name, content) :: rest)) ↔ rest = [] ∧
      ((name = "leaf" ∧ ∃ kind, LeafIsSpelledBy kind content ∧ leaf kind = document) ∨
        (name = "struct" ∧ StructIsSpelledBy document content) ∨
        (name = "tuple" ∧ TupleIsSpelledBy document content) ∨
        (name = "codec" ∧ CodecIsSpelledBy document content)) := by
  constructor
  · intro spelled
    cases document <;> rw [IsSpelledBy, isVariant_object_iff] at spelled <;>
      obtain ⟨rfl, holds, rfl⟩ := spelled
    case leaf kind => exact ⟨rfl, .inl ⟨rfl, kind, holds, rfl⟩⟩
    case struct => exact ⟨rfl, .inr (.inl ⟨rfl, _, _, rfl, holds⟩)⟩
    case tuple => exact ⟨rfl, .inr (.inr (.inl ⟨rfl, _, _, _, rfl, holds⟩))⟩
    case timestampText => exact ⟨rfl, .inr (.inr (.inr ⟨rfl, .inl ⟨rfl, holds⟩⟩))⟩
    case booleanText truthy falsy =>
      exact ⟨rfl, .inr (.inr (.inr ⟨rfl, .inr ⟨(truthy, falsy), rfl, holds⟩⟩))⟩
  · rintro ⟨rfl, ⟨rfl, kind, holds, rfl⟩ | ⟨rfl, _, _, rfl, holds⟩ | ⟨rfl, _, _, _, rfl, holds⟩ |
      ⟨rfl, ⟨rfl, holds⟩ | ⟨texts, rfl, holds⟩⟩⟩
    all_goals
      rw [IsSpelledBy, isVariant_object_iff]
      exact ⟨rfl, holds, rfl⟩

/-- **A schema is read** when it is spelled, at any depth that is left. -/
theorem reads_schema (levels : Nat) : Reads levels (readSchema levels) IsSpelledBy := by
  induction levels using Nat.strong_induction_on with | _ levels induction
  intro location written json shown shallow document
  cases shown with
  | @string pieces name spells =>
      simp only [readSchema, bind_eq_ok_iff, contentMissing_ne_ok]
      cases document <;> simp [IsSpelledBy, IsVariant]
  | @object members values shown =>
      obtain ⟨inner, enters, shallow⟩ := Json.depth_object_le_iff.mp shallow
      -- whatever is inside is read with fewer levels
      have below : ReadsUpTo inner := fun lower bound =>
        induction lower (bound.trans_lt (lt_of_enter enters))
      cases shown with
      | nil =>
          simp only [readSchema, bind_eq_ok_iff, noVariant_closed_ne_ok]
          cases document <;> simp [IsSpelledBy, IsVariant]
      | @cons pieces name _ content _ rest spells first others =>
          rw [List.forall_mem_cons] at shallow
          simp only [readSchema, readAlternative_eq_ok_iff spells first enters,
            isSpelledBy_object_iff]
          split
          case h_1 =>
            have known : "leaf" ∈ schemaNames := by decide
            simp only [leaveAlternative_eq_ok_iff others, map_eq_ok_iff,
              reads_leaf _ _ _ first shallow.1, known, String.reduceEq, true_and, false_and,
              or_false]
            exact and_comm
          case h_2 =>
            have known : "struct" ∈ schemaNames := by decide
            simp only [leaveAlternative_eq_ok_iff others, reads_struct below _ _ _ first shallow.1,
              known, String.reduceEq]
            tauto
          case h_3 =>
            have known : "tuple" ∈ schemaNames := by decide
            simp only [leaveAlternative_eq_ok_iff others, reads_tuple below _ _ _ first shallow.1,
              known, String.reduceEq]
            tauto
          case h_4 _ notLeaf notStruct notTuple =>
            have known : name ∈ schemaNames ↔ name = "codec" := by
              simp only [schemaNames, List.mem_cons, List.not_mem_nil, or_false]
              tauto
            simp only [leaveAlternative_eq_ok_iff others, reads_codec _ _ _ first shallow.1, known]
            tauto
  | _ =>
      simp only [readSchema, notVariant_ne_ok]
      cases document <;> simp [IsSpelledBy, IsVariant]

/-- **The grammar is unambiguous**: a JSON document spells one schema document at most. -/
theorem isSpelledBy_unique {first second : SchemaDocument} {json : Json}
    (spelled : first.IsSpelledBy json) (spelledToo : second.IsSpelledBy json) : first = second := by
  obtain ⟨written, shown⟩ := Json.Written.exists_shows json
  -- both are what is read from a tree that shows the document
  have reads := reads_schema json.depth [] written json shown le_rfl
  have one := (reads first).mpr spelled
  rw [(reads second).mpr spelledToo] at one
  exact (Except.ok.inj one).symm

/-! ## (2) Texts -/

/-- No document is spelled by a word, and none is read from one. -/
theorem readSchema_word_ne_ok {written : Written} (isWord : written.IsWord) (levels : Nat)
    (location : Location) (document : SchemaDocument) :
    readSchema levels location written ≠ .ok document := by
  cases written with
  | string | array | object => exact isWord.elim
  | _ =>
      rw [readSchema]
      · exact notVariant_ne_ok _ _
      all_goals exact nofun

/-- Literals and numbers spell no schema. -/
theorem not_isSpelledBy_of_isWord {json : Json} (isWord : json.IsWord)
    (document : SchemaDocument) : ¬document.IsSpelledBy json := by
  cases json with
  | string | array | object => exact isWord.elim
  | _ => cases document <;> simp [IsSpelledBy, IsVariant]

/-- A text that starts with a JSON document is read as what the document spells. -/
theorem read_eq_ok_iff {json : Json} {text : List Char}
    (hasText : Json.Padded json.HasText text) (shallow : json.depth ≤ Json.defaultDepth)
    (behind : List Char) (document : SchemaDocument) :
    read (String.ofList (text ++ behind)) = .ok document ↔ document.IsSpelledBy json := by
  rw [read, String.toList_ofList]
  -- a word ends only where what follows lets it, but no schema document is one
  by_cases isWord : json.IsWord
  · have fails := readSchema_word_ne_ok (Written.isWord_ofText isWord hasText behind)
      Json.defaultDepth [] document
    simp [fails, not_isSpelledBy_of_isWord isWord]
  · exact reads_schema _ _ _ _ (Written.shows_ofText isWord hasText behind) shallow document

/-- **The schemas of texts**: a text that starts with a JSON document, in which names may repeat and
whose depth is not too large, has exactly the schemas of the schema documents that the JSON document
spells, whatever follows it. -/
theorem parse_eq_ok_iff {json : Json} {text : List Char}
    (hasText : Json.Padded json.HasText text) (shallow : json.depth ≤ Json.defaultDepth)
    (behind : List Char) (schema : Schema) :
    parse (String.ofList (text ++ behind)) = .ok schema ↔
      ∃ document : SchemaDocument, document.IsSpelledBy json ∧ document.toSchema = .ok schema := by
  simp only [parse, bind_eq_ok_iff, mapError_eq_ok_iff, read_eq_ok_iff hasText shallow]

/-- A tuple with nothing but its flag, and a bracket too many behind it. -/
theorem parse_eq_ok_iff_tuple :
    parse (String.ofList (('{' :: ('"' :: ("tuple".toList ++ ['"']) ++ ':' ::
      ('{' :: ('"' :: ("readonly".toList ++ ['"']) ++ ':' :: "true".toList) ++ ['}'])) ++ ['}']) ++
        [']'])) = .ok (.tuple [] none true) := by
  have flag : (Json.object [("readonly", .bool true)]).HasText
      ('{' :: ('"' :: ("readonly".toList ++ ['"']) ++ ':' :: "true".toList) ++ ['}']) :=
    ⟨_, ⟨_, _, [], Json.padded_self (Json.stringHasText_self (by simp [Json.IsPrintable])),
      Json.padded_self rfl, rfl, rfl⟩, rfl⟩
  have whole : (Json.object [("tuple", .object [("readonly", .bool true)])]).HasText _ :=
    ⟨_, ⟨_, _, [], Json.padded_self (Json.stringHasText_self (by simp [Json.IsPrintable])),
      Json.padded_self flag, rfl, rfl⟩, rfl⟩
  refine (parse_eq_ok_iff (Json.padded_self whole) (by decide) [']'] _).mpr
    ⟨.tuple [] none true, ?_, rfl⟩
  rw [IsSpelledBy]
  refine ⟨_, rfl, _, .object (by decide) (by decide), ?_⟩
  exact ⟨rfl, rfl, rfl⟩

end WireSchema.SchemaDocument

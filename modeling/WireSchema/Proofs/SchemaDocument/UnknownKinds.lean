import WireSchema.Proofs.Json.Parts
import WireSchema.Proofs.SchemaDocument.Mistakes

/-! # Unknown kinds of schemas

The schemas inside a document stand at positions, which steps through fields, index signatures,
elements and rest types lead to. Where an object whose only member is no kind of schema has come
into the place of one of them, the error of the document tells the path of the position and the
name of the member (`parse_unknownKind`). -/

namespace WireSchema.SchemaDocument

open Json (Location Padded PartAt Piece Written)
open Json.Written (Exchanged Shows StandsAt exchanged_ofText exists_leads_object exists_standsAt)

/-! ## (1) Positions -/

/-- A step from a schema to one inside of it. -/
inductive SchemaStep where
  /-- To the type of the field at a position. -/
  | field (position : Nat)
  /-- To the index type of a struct. -/
  | index
  /-- To the type of the element at a position. -/
  | element (position : Nat)
  /-- To the rest type of a tuple. -/
  | rest
  deriving DecidableEq

/-- Where a step leads in the text of a document that has records as objects. -/
def SchemaStep.location : SchemaStep → Location
  | .field position => [.member "struct", .member "fields", .item position, .member "type"]
  | .index => [.member "struct", .member "index", .member "type"]
  | .element position => [.member "tuple", .member "elements", .item position, .member "type"]
  | .rest => [.member "tuple", .member "rest"]

/-- Where steps from the root lead. -/
def locationOf (steps : List SchemaStep) : Location := steps.flatMap SchemaStep.location

/-- How a step is written in a path. -/
def SchemaStep.path : SchemaStep → String
  | .field position => s!"struct.fields[{position}].type"
  | .index => "struct.index.type"
  | .element position => s!"tuple.elements[{position}].type"
  | .rest => "tuple.rest"

@[simp] theorem SchemaStep.path_field (position : Nat) :
    (field position).path = s!"struct.fields[{position}].type" := rfl

@[simp] theorem SchemaStep.path_index : index.path = "struct.index.type" := rfl

@[simp] theorem SchemaStep.path_element (position : Nat) :
    (element position).path = s!"tuple.elements[{position}].type" := rfl

@[simp] theorem SchemaStep.path_rest : rest.path = "tuple.rest" := rfl

/-- The path of a schema; that of the root is a point. -/
def pathOf : List SchemaStep → String
  | [] => "."
  | steps => ".".intercalate (steps.map SchemaStep.path)

/-- A first step is written as its path. -/
theorem render_location (step : SchemaStep) : Location.render step.location = step.path := by
  apply String.toList_inj.mp
  cases step <;> simp [SchemaStep.location, Location.render, Location.stepText, toString]

/-- A later step is written as its path behind a point. -/
theorem foldl_location (step : SchemaStep) (text : String) :
    step.location.foldl (fun text step => text ++ Location.stepText false step) text =
      text ++ "." ++ step.path := by
  apply String.toList_inj.mp
  cases step <;> simp [SchemaStep.location, Location.stepText, toString]

/-- Behind a location that is not empty, each step is written with what separates it. -/
theorem render_append {front : Location} (notEmpty : front ≠ []) (behind : Location) :
    Location.render (front ++ behind) =
      behind.foldl (fun text step => text ++ Location.stepText false step) front.render := by
  cases front with
  | nil => exact absurd rfl notEmpty
  | cons first rest => rw [List.cons_append, Location.render, List.foldl_append, Location.render]

/-- Steps behind a text are written behind it, each behind a point. -/
theorem foldl_locationOf (text : String) (steps : List SchemaStep) :
    (locationOf steps).foldl (fun text step => text ++ Location.stepText false step) text =
      ".".intercalate (text :: steps.map SchemaStep.path) := by
  induction steps generalizing text with
  | nil => exact String.intercalate_singleton.symm
  | cons step steps induction =>
      rw [locationOf, List.flatMap_cons, List.foldl_append, foldl_location, ← locationOf, induction,
        String.intercalate_cons_append, List.map_cons, String.intercalate_cons_cons]

/-- **The location of a schema is written as its path.** -/
theorem render_locationOf (steps : List SchemaStep) :
    Location.render (locationOf steps) = pathOf steps := by
  cases steps with
  | nil => rfl
  | cons step steps =>
      have notEmpty : step.location ≠ [] := by cases step <;> exact List.cons_ne_nil _ _
      rw [locationOf, List.flatMap_cons, render_append notEmpty, ← locationOf, render_location,
        foldl_locationOf]
      rfl

/-- **A mistake is met** by whoever reads the document around it. -/
theorem meets_schema (mistake : Mistake) (steps : List SchemaStep) (levels : Nat) :
    Meets mistake (readSchema levels) (locationOf steps) := by
  -- each step passes through the readers of its kind, one for each segment of its location
  induction steps generalizing levels with
  | nil =>
      rintro place _ _ (_ | _ | _)
      rw [locationOf, List.flatMap_nil, List.append_nil]
      exact mistake.spoils levels place
  | cons step steps induction =>
      cases step with
      | field position =>
          exact meets_schema_struct mistake (meets_struct_fields mistake (meets_fields mistake
            (meets_field mistake induction) position)) levels
      | index =>
          exact meets_schema_struct mistake (meets_struct_index mistake
            (meets_index mistake induction)) levels
      | element position =>
          exact meets_schema_tuple mistake (meets_tuple_elements mistake (meets_elements mistake
            (meets_element mistake induction) position)) levels
      | rest => exact meets_schema_tuple mistake (meets_tuple_rest mistake induction) levels

/-! ## (2) Unknown kinds -/

/-- Where a schema can be read, an object can be entered. -/
theorem exists_enter_of_readSchema {levels : Nat} {place : Location} {tree : Written}
    {document : SchemaDocument} (succeeds : readSchema levels place tree = .ok document) :
    ∃ inner, Json.enter levels = .ok inner := by
  -- every way of going on has entered a level first
  have entered : ∀ next : Nat → Reading SchemaDocument,
      (ofJson place (Json.enter levels) >>= next) = .ok document →
        ∃ inner, Json.enter levels = .ok inner := by
    intro next succeeds
    obtain ⟨inner, enters, _⟩ := bind_eq_ok_iff.mp succeeds
    exact ⟨inner, ofJson_eq_ok_iff.mp enters⟩
  cases tree with
  | object members _ =>
      cases members with
      | nil =>
          rw [readSchema] at succeeds
          exact entered _ succeeds
      | cons _ _ =>
          rw [readSchema] at succeeds
          exact entered _ succeeds
  | string pieces =>
      rw [readSchema] at succeeds
      obtain ⟨_, _, fails⟩ := bind_eq_ok_iff.mp succeeds
      exact absurd fails (contentMissing_ne_ok _ _ _)
  | null | bool | number | array | misspeltNull | broken =>
      rw [readSchema] at succeeds
      · exact absurd succeeds (notVariant_ne_ok _ _)
      all_goals
        intros
        contradiction

/-- The error of an object with one member of an unknown name in the place of a schema. -/
def unknownKind (steps : List SchemaStep) (name : String) : ParseError :=
  .malformed ⟨locationOf steps, .unknownVariant name schemaNames⟩

/-- The message of an unknown alternative gives the path, the name and the known ones. -/
theorem message_unknownVariant (location : Location) (name : String) (known : List String) :
    (ParseError.malformed ⟨location, .unknownVariant name known⟩).message =
      "invalid schema document at JSON path " ++ location.render ++ ": " ++
        ("unknown variant `" ++ name ++ "`, expected " ++ alternatives known) := rfl

/-- The mistake that an object with one member of an unknown name stands in the place of a
schema. -/
def Mistake.ofUnknown {old new : Written} {name : String} {content : Json} (isSchema : old ≠ .null)
    (shown : Shows new (.object [(name, content)])) (unknown : name ∉ schemaNames) :
    Mistake where
  old := old
  new := new
  problem := .unknownVariant name schemaNames
  old_ne_null := isSchema
  isBracketed := by
    cases shown
    trivial
  spoils := by
    intro levels place document succeeds
    -- the object can be entered since the schema could, and its name is read before its content
    obtain ⟨inner, enters⟩ := exists_enter_of_readSchema succeeds
    cases shown with | object members
    cases members with | cons spells
    have fails : readVariant place schemaNames _ = fail place (.unknownVariant name schemaNames) :=
      readVariant_of_notMem spells unknown
    rw [readSchema, enters, fails]
    rfl

/-- **A text with a mistake cannot be parsed**, if it could be without the mistake, and the error is
where the schema stood. -/
theorem parse_of_exchanged (mistake : Mistake) {text text' : String} {schema : Schema}
    (accepted : parse text = .ok schema) {steps : List SchemaStep}
    (exchanged : Exchanged mistake.old mistake.new (locationOf steps)
      (Written.ofText text.toList).1 (Written.ofText text'.toList).1) :
    parse text' = .error (.malformed ⟨locationOf steps, mistake.problem⟩) := by
  obtain ⟨document, reads, _⟩ := bind_eq_ok_iff.mp accepted
  have fails : read text' = .error ⟨locationOf steps, mistake.problem⟩ :=
    meets_schema mistake steps _ _ _ _ exchanged document (mapError_eq_ok_iff.mp reads)
  rw [parse, fails]
  rfl

/-- **An unknown kind of schema is reported where it stands.** If a text can be parsed, then an
object whose only member is no kind of schema cannot come into the place of a schema in it: not in
any text whose tree is the same but for the schema, and so not in the text itself, where the text of
the schema has been cut out at the position. In the texts of JSON documents every object can be cut
out so. A rest type that is `null` is no schema. -/
theorem parse_unknownKind {text : String} {schema : Schema} (accepted : parse text = .ok schema)
    (steps : List SchemaStep) {name : String} (unknown : name ∉ schemaNames) :
    (∀ old new text', old ≠ .null → Shows new (.object [(name, .null)]) →
      Exchanged old new (locationOf steps) (Written.ofText text.toList).1
        (Written.ofText text'.toList).1 →
      parse text' = .error (unknownKind steps name)) ∧
    (∀ old (before here there behind : String), old ≠ .null → text = before ++ here ++ behind →
      StandsAt (locationOf steps) old before.toList here.toList →
      (Json.object [(name, .null)]).HasText there.toList →
      parse (before ++ there ++ behind) = .error (unknownKind steps name)) ∧
    (∀ json members own others, text.toList = own ++ others → Padded json.HasText own →
      PartAt (.object members) (locationOf steps) json →
      ∃ old, ∃ before here behind : String, old ≠ .null ∧ text = before ++ here ++ behind ∧
        (Json.object members).HasText here.toList ∧
        StandsAt (locationOf steps) old before.toList here.toList) ∧
    (unknownKind steps name).message =
      "invalid schema document at JSON path " ++ pathOf steps ++ ": " ++
        ("unknown variant `" ++ name ++ "`, expected " ++
          "one of `leaf`, `struct`, `tuple`, `codec`") := by
  -- texts are read by their trees, so the error is settled on trees first
  have inTrees : ∀ old new text', old ≠ .null → Shows new (.object [(name, .null)]) →
      Exchanged old new (locationOf steps) (Written.ofText text.toList).1
        (Written.ofText text'.toList).1 →
      parse text' = .error (unknownKind steps name) := fun _ _ _ isSchema shown exchanged =>
    parse_of_exchanged (.ofUnknown isSchema shown unknown) accepted exchanged
  refine ⟨inTrees, ?_, ?_, ?_⟩
  · rintro old before here there behind isSchema rfl stands hasText
    -- the text that is put in leads to a tree where the old text led to another
    obtain ⟨new, shown, leads⟩ := exists_leads_object hasText
    refine inTrees old new _ isSchema shown ?_
    simp only [String.toList_append, List.append_assoc]
    exact exchanged_ofText stands leads behind.toList
  · intro json members own others split hasText inside
    obtain ⟨before, here, behind, old, rfl, partHasText, shown, stands⟩ :=
      exists_standsAt inside hasText
    have isSchema : old ≠ .null := by
      rintro rfl
      cases shown
    refine ⟨old, .ofList before, .ofList here, .ofList (behind ++ others), isSchema, ?_, ?_, ?_⟩
    · apply String.toList_inj.mp
      simp [split]
    · rw [String.toList_ofList]
      exact partHasText
    · rw [String.toList_ofList, String.toList_ofList]
      exact stands
  · have listed : alternatives schemaNames = "one of `leaf`, `struct`, `tuple`, `codec`" := rfl
    rw [unknownKind, message_unknownVariant, render_locationOf, listed]

/-! ## (3) A column -/

/-- The pieces of a text without escapes. -/
def plainPieces (text : String) : List Piece := text.toList.map .char

/-- The text of a schema before the type of its only field. -/
def beforeColumn : String := "\x7b\"struct\":\x7b\"fields\":[\x7b\"name\":\"id\",\"type\":"

/-- The text of the type. -/
def columnText : String := "\x7b\"leaf\":\"number\"\x7d"

/-- The text behind it. -/
def behindColumn : String := "\x7d]\x7d\x7d"

/-- The type of the field. -/
def column : Written :=
  .object [(plainPieces "leaf", .string (plainPieces "number"))] .closed

/-- A schema with one number for its only field is read from its text. -/
theorem parse_columnText : parse (beforeColumn ++ columnText ++ behindColumn) =
    .ok (.struct [⟨"id", .leaf .number, false, false, none, []⟩] none) := by
  rw [parse, read]
  delta beforeColumn columnText behindColumn
  simp only [String.toList_append]
  iterate 3 rw [String.toList_ofList]
  cbv

/-- The type of the field stands where its location says. -/
theorem standsAt_columnText :
    StandsAt (locationOf [.field 0]) column beforeColumn.toList columnText.toList := by
  have struct := Json.Written.Locates.object .root
    (Json.Written.text_map_char "struct") []
  have fields := struct.object (Json.Written.text_map_char "fields") []
  have type := (fields.array []).object (Json.Written.text_map_char "type")
    [(plainPieces "name", .string (plainPieces "id"))]
  refine ⟨_, _, .value _, type, fun behind => ?_, fun behind => ?_⟩
  · delta beforeColumn
    rw [String.toList_ofList]
    rfl
  · delta columnText
    rw [String.toList_ofList]
    rfl

/-- The text of an object whose member is no kind of schema. -/
def leefText : String := "\x7b\"leef\":null\x7d"

/-- The text is that of an object with the unknown name for its only key. -/
theorem hasText_leefText : (Json.object [("leef", .null)]).HasText leefText.toList := by
  delta leefText
  rw [String.toList_ofList]
  have name : Json.StringHasText "leef" ('"' :: ("leef".toList ++ ['"'])) :=
    Json.stringHasText_self (by simp [Json.IsPrintable])
  exact ⟨_, ⟨_, _, [], Json.padded_self name, Json.padded_self rfl, rfl, rfl⟩, rfl⟩

/-- The object is reported in the place of the type, by the theorem. -/
theorem parse_unknownKind_column :
    column ≠ .null ∧ "leef" ∉ schemaNames ∧
      parse (beforeColumn ++ leefText ++ behindColumn) =
        .error (.malformed ⟨[.member "struct", .member "fields", .item 0, .member "type"],
          .unknownVariant "leef" schemaNames⟩) ∧
      (unknownKind [.field 0] "leef").message = "invalid schema document at JSON path " ++
        "struct.fields[0].type: unknown variant `leef`, " ++
          "expected one of `leaf`, `struct`, `tuple`, `codec`" := by
  have isSchema : column ≠ .null := nofun
  have unknown : "leef" ∉ schemaNames := by decide
  obtain ⟨_, inTexts, _, message⟩ := parse_unknownKind parse_columnText [.field 0] unknown
  exact ⟨isSchema, unknown,
    inTexts column beforeColumn columnText leefText behindColumn isSchema rfl standsAt_columnText
      hasText_leefText,
    message⟩

end WireSchema.SchemaDocument

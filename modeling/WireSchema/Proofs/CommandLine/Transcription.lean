import Mathlib.Logic.Relation
import WireSchema.Proofs.CommandLine.Lines

/-! # How a transcription ends

A transcription loads its schema and its documents, carries the documents through the schema in no
order that matters, and writes what comes out of them (`run_transcode`). Nothing is written when the
schema or an input fails, nor when the first failure ends the run; otherwise what came out of the
documents that succeed is written in their order, also where other documents fail. -/

namespace WireSchema.CommandLine

open Relation (ReflTransGen)

variable {language : FilterLanguage} {files : FileSystem} {request : Transcription}
  {schema : Schema} {direction : Direction} {documents : List InputDocument}

/-! ## (1) Schemas -/

/-- The schema in the document at a path loads, and its renames are applied. -/
def SchemaLoads (files : FileSystem) (path : String) (applied : Schema) : Prop :=
  ∃ text, files.read path = .ok text ∧ ∃ schema, SchemaDocument.parse text = .ok schema ∧
    schema.applyRenames = .ok applied

/-- **The schema fails**. -/
inductive SchemaFails (files : FileSystem) (path : String) : Prop
  /-- The schema document cannot be read. -/
  | unread {problem : FileProblem} (fails : files.read path = .error problem)
  /-- The text of the schema document describes no schema. -/
  | unparsed {text : String} {problem : SchemaDocument.ParseError}
      (reads : files.read path = .ok text) (fails : SchemaDocument.parse text = .error problem)
  /-- The renames of the schema cannot be applied. -/
  | conflicting {text : String} {schema : Schema} {conflict : RenameConflict}
      (reads : files.read path = .ok text) (parses : SchemaDocument.parse text = .ok schema)
      (fails : schema.applyRenames = .error conflict)

/-- Loading a schema, without regard to errors. -/
theorem toOption_loadRenamed (path : String) :
    (loadRenamed files path).toOption =
      (files.read path).toOption.bind fun text =>
        (SchemaDocument.parse text).toOption.bind fun schema => schema.applyRenames.toOption := by
  rw [loadRenamed, loadSchema, toOption_bind, toOption_bind, Option.bind_assoc]
  simp only [toOption_mapError]

/-- A schema is ready for transcoding exactly if its file is read and parsed and its renames apply.
-/
theorem loadRenamed_eq_ok_iff {path : String} {applied : Schema} :
    loadRenamed files path = .ok applied ↔ SchemaLoads files path applied := by
  rw [← toOption_eq_some_iff, toOption_loadRenamed]
  simp only [bind_toOption_eq_some_iff, toOption_eq_some_iff]
  rfl

/-- No schema is ready exactly if its file, its text or its renames are at fault. -/
theorem loadRenamed_eq_error_iff {path : String} :
    (∃ failure, loadRenamed files path = .error failure) ↔ SchemaFails files path := by
  rw [← toOption_eq_none_iff, toOption_loadRenamed]
  simp only [bind_toOption_eq_none_iff, toOption_eq_none_iff]
  constructor
  · rintro (⟨problem, fails⟩ | ⟨text, reads, ⟨problem, fails⟩ | ⟨schema, parses, conflict, fails⟩⟩)
    · exact .unread fails
    · exact .unparsed reads fails
    · exact .conflicting reads parses fails
  · intro fails
    cases fails with
    | unread fails => exact .inl ⟨_, fails⟩
    | unparsed reads fails => exact .inr ⟨_, reads, .inl ⟨_, fails⟩⟩
    | conflicting reads parses fails => exact .inr ⟨_, reads, .inr ⟨_, parses, _, fails⟩⟩

/-! ## (2) Documents at once

Documents are carried through a schema side by side. There is a place for the result of each of
them, and any document that is not finished may be the next one to finish. -/

/-- **A document finishes**: its result is put in its place. -/
inductive Finishes (schema : Schema) (direction : Direction) (documents : List InputDocument) :
    List (Option (Except TranscodingError Value)) →
      List (Option (Except TranscodingError Value)) → Prop
  | next {places : List (Option (Except TranscodingError Value))} {position : Nat}
      {document : InputDocument} (found : documents[position]? = some document)
      (isOpen : places[position]? = some none) :
      Finishes schema direction documents places
        (places.set position (some (schema.transcode direction document.value)))

/-- **All documents have finished**, in some order, with the given results in their places. -/
def HaveFinished (schema : Schema) (direction : Direction) (documents : List InputDocument)
    (finished : List (Except TranscodingError Value)) : Prop :=
  ReflTransGen (Finishes schema direction documents) (documents.map fun _ => none)
    (finished.map some)

/-- Every place belongs to a document, and holds nothing but the result of this document. -/
structure ArePlaced (schema : Schema) (direction : Direction) (documents : List InputDocument)
    (places : List (Option (Except TranscodingError Value))) : Prop where
  /-- There are as many places as documents. -/
  length_eq : places.length = documents.length
  /-- What has been put in a place is the result of its document. -/
  result_eq : ∀ (position : Nat) (result : Except TranscodingError Value),
    places[position]? = some (some result) →
      (results schema direction documents)[position]? = some result

/-- No place holds anything at first. -/
theorem arePlaced_start : ArePlaced schema direction documents (documents.map fun _ => none) := by
  refine ⟨List.length_map _, fun position result held => ?_⟩
  rw [List.getElem?_map] at held
  obtain ⟨_, _, same⟩ := Option.map_eq_some_iff.mp held
  cases same

/-- A document that finishes leaves the other places as they are. -/
theorem ArePlaced.of_finishes {places after : List (Option (Except TranscodingError Value))}
    (placed : ArePlaced schema direction documents places)
    (finishes : Finishes schema direction documents places after) :
    ArePlaced schema direction documents after := by
  cases finishes with
  | @next position document found isOpen =>
      refine ⟨(List.length_set ..).trans placed.length_eq, fun other result held => ?_⟩
      -- only the place of the document that finishes has changed
      by_cases same : position = other
      · subst same
        rw [List.getElem?_set_self (List.getElem?_eq_some_iff.mp isOpen).1] at held
        cases held
        rw [results, List.getElem?_map, found]
        rfl
      · rw [List.getElem?_set_ne same] at held
        exact placed.result_eq other result held

/-- **The order does not matter**: when all documents have finished, the places hold their results
in the order of the documents. -/
theorem HaveFinished.eq_results {finished : List (Except TranscodingError Value)}
    (finishes : HaveFinished schema direction documents finished) :
    finished = results schema direction documents := by
  have placed : ArePlaced schema direction documents (finished.map some) := by
    -- what one document preserves by finishing is preserved by all of them
    refine ReflTransGen.head_induction_on (motive := fun places _ =>
      ArePlaced schema direction documents places →
        ArePlaced schema direction documents (finished.map some)) finishes id ?_ arePlaced_start
    intro places after finishes _ induction placed
    exact induction (placed.of_finishes finishes)
  have length := placed.length_eq
  rw [List.length_map] at length
  refine List.ext_getElem? fun position => ?_
  cases found : finished[position]? with
  | some result =>
      refine (placed.result_eq position result ?_).symm
      rw [List.getElem?_map, found]
      rfl
  | none =>
      have beyond := List.getElem?_eq_none_iff.mp found
      refine (List.getElem?_eq_none_iff.mpr ?_).symm
      rw [results, List.length_map]
      omega

/-- Documents can finish in their own order, so that there always is an order in which all do. -/
theorem haveFinished_results (schema : Schema) (direction : Direction)
    (documents : List InputDocument) :
    HaveFinished schema direction documents (results schema direction documents) := by
  -- the documents in front have finished, and those behind have not
  suffices onward : ∀ front behind, documents = front ++ behind →
      ReflTransGen (Finishes schema direction documents)
        ((results schema direction front).map some ++ behind.map fun _ => none)
        ((results schema direction documents).map some) from onward [] documents rfl
  intro front behind split
  induction behind generalizing front with
  | nil =>
      rw [List.append_nil] at split
      subst split
      rw [List.map_nil, List.append_nil]
  | cons document rest induction =>
      have later := induction (front ++ [document]) (by simp [split])
      refine .head ?_ later
      have length : ((results schema direction front).map some).length = front.length := by
        simp [results]
      have found : documents[front.length]? = some document := by simp [split]
      have isOpen : ((results schema direction front).map some ++
          (document :: rest).map fun _ => none)[front.length]? = some none := by
        rw [List.getElem?_append_right (by omega), length]
        simp
      have next : Finishes schema direction documents _ _ := .next found isOpen
      rw [List.set_append_right _ _ (by omega), length, Nat.sub_self, List.map_cons,
        List.set_cons_zero] at next
      simpa [results] using next

/-! ## (3) What comes out -/

/-- The documents that come out of those that succeed, in order. -/
def transcoded (schema : Schema) (direction : Direction) (documents : List InputDocument) :
    List Json :=
  documents.filterMap fun document =>
    (schema.transcode direction document.value).toOption.map Value.toJson

/-- The documents that fail, in order. -/
def failing (schema : Schema) (direction : Direction) (documents : List InputDocument) :
    List InputDocument :=
  documents.filter fun document => !(schema.transcode direction document.value).isOk

/-- What comes out of documents is sorted out of their results. -/
theorem fst_sortOut (schema : Schema) (direction : Direction) (documents : List InputDocument) :
    (sortOut (documents.zip (results schema direction documents))).1 =
      transcoded schema direction documents := by
  induction documents with
  | nil => rfl
  | cons document rest induction =>
      rw [transcoded, List.filterMap_cons, ← transcoded, ← induction]
      rw [results, List.map_cons, List.zip_cons_cons, sortOut, ← results]
      cases schema.transcode direction document.value <;> rfl

/-- The failures that are sorted out of the results are those of the failing documents. -/
theorem map_fst_snd_sortOut (schema : Schema) (direction : Direction)
    (documents : List InputDocument) :
    (sortOut (documents.zip (results schema direction documents))).2.map Prod.fst =
      (failing schema direction documents).map InputDocument.origin := by
  induction documents with
  | nil => rfl
  | cons document rest induction =>
      rw [failing, List.filter_cons, ← failing]
      rw [results, List.map_cons, List.zip_cons_cons, sortOut, ← results]
      cases schema.transcode direction document.value with
      | ok value => exact induction
      | error error => exact congrArg (document.origin :: ·) induction

/-- **Nothing is written**, neither to the standard output nor to a file. -/
def Outcome.WritesNothing (outcome : Outcome) : Prop := outcome.output = "" ∧ outcome.written = none

/-- **A text is written** to the file that is asked for, else to the standard output, and nothing
besides. -/
def Outcome.Writes (outcome : Outcome) (out : Option String) (text : String) : Prop :=
  match out with
  | none => outcome.output = text ++ "\n" ∧ outcome.written = none
  | some path => outcome.output = "" ∧ outcome.written = some (path, text)

/-- The file that is asked for, if any, can be written. -/
def IsWritable (files : FileSystem) (out : Option String) : Prop :=
  ∀ path ∈ out, ∀ text, ∃ after, save files path text = .ok after

/-- A command that fails outright writes nothing. -/
theorem writesNothing_failed (failure : String) : (Outcome.failed failure).WritesNothing :=
  ⟨rfl, rfl⟩

/-- Delivering to a writable place writes the text there, without failing. -/
theorem writes_deliver {out : Option String} (writable : IsWritable files out) (text : String) :
    (deliver files out text).Writes out text ∧ (deliver files out text).failure = none := by
  cases out with
  | none => exact ⟨⟨rfl, rfl⟩, rfl⟩
  | some path =>
      obtain ⟨after, saves⟩ := writable path rfl text
      rw [deliver, saves]
      exact ⟨⟨rfl, rfl⟩, rfl⟩

section Conclude

variable (files request schema documents)

/-- The outcome for documents whose results are all there. -/
theorem transcodeAll_eq_conclude {finished : List (Except TranscodingError Value)}
    (finishes : HaveFinished schema request.direction documents finished) :
    transcodeAll files request schema documents = conclude files request documents finished := by
  rw [finishes.eq_results, transcodeAll]

variable {files request schema documents}

/-- **The first failure ends the run**, where it is asked to, and its document is named. -/
theorem transcodeAll_of_stops (stops : request.stopsAtFailure = true) {first : InputDocument}
    (fails : first ∈ (failing schema request.direction documents).head?) :
    (transcodeAll files request schema documents).WritesNothing ∧
      (transcodeAll files request schema documents).failure =
        some s!"stopped at first failure ({first.origin})" := by
  have origins := map_fst_snd_sortOut schema request.direction documents
  obtain ⟨others, split⟩ := List.head?_eq_some_iff.mp fails
  rw [split, List.map_cons] at origins
  rw [transcodeAll, conclude]
  cases sorted : sortOut (documents.zip (results schema request.direction documents)) with
  | mk values failures =>
      rw [sorted] at origins
      obtain ⟨⟨origin, error⟩, rest, rfl, rfl, _⟩ := List.map_eq_cons_iff.mp origins
      -- the first failure is at hand, so the texts of the results are never made
      simp only [stops]
      exact ⟨⟨rfl, rfl⟩, rfl⟩

/-- **What succeeds is written** where failures do not end the run, or there are none, and the
failures are counted. -/
theorem transcodeAll_of_goesOn
    (goesOn : request.stopsAtFailure = false ∨ failing schema request.direction documents = [])
    (writable : IsWritable files request.out) :
    let failed := failing schema request.direction documents
    (transcodeAll files request schema documents).Writes request.out
        (resultText request.isLineByLine (transcoded schema request.direction documents)) ∧
      (transcodeAll files request schema documents).failure =
        if failed.isEmpty then none
        else some s!"{failed.length} of {documents.length} document(s) failed" := by
  intro failed
  have origins : (sortOut (documents.zip (results schema request.direction documents))).2.map
      Prod.fst = failed.map InputDocument.origin :=
    map_fst_snd_sortOut schema request.direction documents
  rw [transcodeAll, conclude, ← fst_sortOut]
  cases sorted : sortOut (documents.zip (results schema request.direction documents)) with
  | mk values failures =>
      rw [sorted] at origins
      have counted : failures.length = failed.length := by
        simpa using congrArg List.length origins
      have emptyToo : failures.isEmpty = failed.isEmpty := by
        rw [Bool.eq_iff_iff, List.isEmpty_iff, List.isEmpty_iff, ← List.length_eq_zero_iff,
          ← List.length_eq_zero_iff, counted]
      obtain ⟨writes, delivered⟩ :=
        writes_deliver writable (resultText request.isLineByLine values)
      have failure :
          ((deliver files request.out (resultText request.isLineByLine values)).failure <|>
            if failures.isEmpty then none
            else some s!"{failures.length} of {documents.length} document(s) failed") =
          if failed.isEmpty then none
          else some s!"{failed.length} of {documents.length} document(s) failed" := by
        rw [delivered, emptyToo, counted]
        rfl
      cases failures with
      | nil => exact ⟨writes, failure⟩
      | cons first rest =>
          -- some document fails, so that the run goes on behind failures
          have goesOnBehind : request.stopsAtFailure = false := by
            refine goesOn.resolve_right fun none => ?_
            have absent : failed = [] := none
            rw [absent] at counted
            cases counted
          simp only [goesOnBehind]
          exact ⟨writes, failure⟩

end Conclude

/-! ## (4) Whole runs -/

/-- A run without schema fails. -/
theorem run_of_schemaFails (fails : SchemaFails files request.schema) :
    ∃ failure, runWith language files (.transcode request) = .failed failure := by
  obtain ⟨failure, loads⟩ := loadRenamed_eq_error_iff.mpr fails
  refine ⟨failure, ?_⟩
  rw [runWith, transcode, loads]

/-- A run without input documents fails. -/
theorem run_of_inputFails (fails : InputFails language files request) :
    ∃ failure, runWith language files (.transcode request) = .failed failure := by
  obtain ⟨failure, unread⟩ := allInputsOf_eq_error_iff.mpr fails
  rw [runWith, transcode]
  cases loadRenamed files request.schema with
  | error other => exact ⟨other, rfl⟩
  | ok schema =>
      refine ⟨failure, ?_⟩
      rw [unread]

/-- A run with schema and input documents carries the documents through the schema. -/
theorem run_of_loads (loads : SchemaLoads files request.schema schema)
    (gathered : Gathered (InputGives language files request) request.inputs documents) :
    runWith language files (.transcode request) = transcodeAll files request schema documents := by
  rw [runWith, transcode, loadRenamed_eq_ok_iff.mpr loads, allInputsOf_eq_ok_iff.mpr gathered]

/-- Unless something fails before, there are a schema and documents. -/
theorem exists_documents (language : FilterLanguage) (files : FileSystem)
    (request : Transcription) :
    SchemaFails files request.schema ∨ InputFails language files request ∨
      ∃ schema documents, SchemaLoads files request.schema schema ∧
        Gathered (InputGives language files request) request.inputs documents := by
  cases loads : loadRenamed files request.schema with
  | error failure => exact .inl (loadRenamed_eq_error_iff.mp ⟨failure, loads⟩)
  | ok schema =>
      cases reads : allInputsOf language files request with
      | error failure => exact .inr (.inl (allInputsOf_eq_error_iff.mp ⟨failure, reads⟩))
      | ok documents =>
          exact .inr (.inr ⟨schema, documents, loadRenamed_eq_ok_iff.mp loads,
            allInputsOf_eq_ok_iff.mp reads⟩)

/-- A file of documents, beside the file of a schema for timestamps. -/
def stampFiles (content : String) : FileSystem where
  root := .directory
    [("in", .file (some content)),
      ("schema", .file (some "\x7b\"codec\":\"date-from-string\"\x7d"))]
  workingDirectory := []

/-- The schema is found beside any documents. -/
theorem schemaLoads_stampFiles (content : String) :
    SchemaLoads (stampFiles content) "schema" .timestampText := by
  refine ⟨_, rfl, .timestampText, ?_, rfl⟩
  rw [SchemaDocument.parse, SchemaDocument.read, String.toList_ofList]
  rfl

/-- The documents on the lines of a file are gathered from its sources. -/
theorem gathered_stampFiles {content : String} {documents : List InputDocument}
    (lineByLine : request.isLineByLine = true)
    (gathered : Gathered (SourceGives language request) (sources true "in" content) documents) :
    Gathered (InputGives language (stampFiles content) request) ["in"] documents := by
  have named : filesOf (stampFiles content) "in" = .ok ["in"] := if_neg (by decide)
  refine gathered_singleton ⟨["in"], named, gathered_singleton ⟨content, rfl, ?_⟩⟩
  rw [lineByLine]
  exact gathered

section Dropping

variable (unpointed : request.pointer = none) (kept : request.filter = some "select(. != null)")

include unpointed kept

/-- A source of null gives nothing, as the filter drops it. -/
theorem sourceGives_null (origin : String) :
    SourceGives .droppingNull request (origin, "null") [] := by
  have parses : Json.parse "null" = .ok .null := rfl
  refine ⟨_, .null, [], parses, ?_, ?_, rfl⟩
  · rw [unpointed]
    rfl
  · rw [kept]
    exact FilterLanguage.gives_droppingNull_null

/-- A source of a number gives the number. -/
theorem sourceGives_one (origin : String) :
    SourceGives .droppingNull request (origin, "1") [⟨origin, .number (.integer 1)⟩] := by
  have parses : Json.parse "1" = .ok (.number (.integer 1)) := rfl
  refine ⟨_, .number (.integer 1), [.number (.integer 1)], parses, ?_, ?_, rfl⟩
  · rw [unpointed]
    rfl
  · rw [kept]
    exact FilterLanguage.gives_droppingNull_one

end Dropping

/-- Lines with a timestamp, with null and with a number, and a blank one between. -/
def stampLines : String := "\"1970-01-01T01:00:00+01:00\"\n\nnull\n1\n"

/-- The request to encode the documents on the lines of the file that are not null. -/
def encodingKept (stopsAtFailure : Bool) : Transcription :=
  ⟨.encode, "schema", ["in"], true, none, some "select(. != null)", none, stopsAtFailure⟩

/-- The documents that the filter keeps. -/
def keptDocuments : List InputDocument :=
  [⟨"in:1", .string "1970-01-01T01:00:00+01:00"⟩, ⟨"in:3", .number (.integer 1)⟩]

/-- The filter drops the document on the third line. -/
theorem gathered_keptDocuments (stopsAtFailure : Bool) :
    Gathered (InputGives .droppingNull (stampFiles stampLines) (encodingKept stopsAtFailure)) ["in"]
      keptDocuments := by
  refine gathered_stampFiles rfl ?_
  have onLines : sources true "in" stampLines =
      [("in:1", "\"1970-01-01T01:00:00+01:00\""), ("in:2", "null"), ("in:3", "1")] := rfl
  have readsBack : Json.parse (Json.string "1970-01-01T01:00:00+01:00").render =
      .ok (.string "1970-01-01T01:00:00+01:00") := by
    rw [Json.parse, Json.parseToDepth, Json.render, String.toList_ofList]
    rfl
  have stamp : SourceGives .droppingNull (encodingKept stopsAtFailure)
      ("in:1", "\"1970-01-01T01:00:00+01:00\"")
      [⟨"in:1", .string "1970-01-01T01:00:00+01:00"⟩] :=
    ⟨.string "1970-01-01T01:00:00+01:00", _, [_], rfl, rfl,
      ⟨_, rfl, .cons ⟨_, rfl, readsBack⟩ .nil⟩, rfl⟩
  rw [onLines]
  exact Gathered.cons stamp (.cons (sourceGives_null rfl rfl "in:2")
    (gathered_singleton (sourceGives_one rfl rfl "in:3")))

end WireSchema.CommandLine

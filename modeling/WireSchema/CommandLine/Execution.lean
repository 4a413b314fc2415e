import WireSchema.CommandLine.Documents
import WireSchema.Json.Printer
import WireSchema.Schema.Renaming
import WireSchema.Schema.Transcoding
import WireSchema.Schema.View
import WireSchema.SchemaDocument.Reader

/-! # Running commands

A run reads a file system and ends with an **outcome**: what it prints, what it writes, and whether
it failed. Documents are independent of each other, so a document that fails is reported and left
out, and the others are written. Commands run with filters of any language. -/

namespace WireSchema.CommandLine

/-- **The outcome** of a run. -/
structure Outcome where
  /-- The text for the standard output. -/
  output : String
  /-- The text for the standard error stream. -/
  notices : String
  /-- The path of the file that is written, with its text. -/
  written : Option (String × String)
  /-- Why the run failed, if it did. -/
  failure : Option String
  deriving DecidableEq

/-- The outcome of a run that prints and writes nothing and fails. -/
def Outcome.failed (failure : String) : Outcome := ⟨"", "", none, some failure⟩

/-! ## (1) Schemas -/

/-- The schema in the document at a path. -/
def loadSchema (files : FileSystem) (path : String) : Except String Schema := do
  let text ← (files.read path).mapError fun problem =>
    -- the error tells its cause itself, and the cause is told again behind it
    s!"failed to read schema document {path}: {problem.message}: {problem.message}"
  (SchemaDocument.parse text).mapError SchemaDocument.ParseError.message

/-- The schema in the document at a path, with its renames applied. -/
def loadRenamed (files : FileSystem) (path : String) : Except String Schema := do
  let schema ← loadSchema files path
  schema.applyRenames.mapError fun conflict =>
    s!"failed to rewrite schema {path}: {conflict.message}"

/-! ## (2) Output -/

/-- Write a text to the file at a path, making its directory if there is none. -/
def save (files : FileSystem) (path text : String) : Except String FileSystem := do
  let prepared ←
    match Path.parent? path with
    | none => pure files
    | some parent =>
        (files.createDirectories parent).mapError fun problem =>
          s!"failed to create {parent}: {problem.message}"
  (prepared.write path text).mapError fun problem => s!"failed to write {path}: {problem.message}"

/-- The outcome that puts a text where it belongs. -/
def deliver (files : FileSystem) (out : Option String) (text : String) : Outcome :=
  match out with
  | none => ⟨text ++ "\n", "", none, none⟩
  | some path =>
      match save files path text with
      -- a line feed ends the text only on the standard output
      | .ok _ => ⟨"", "", some (path, text), none⟩
      | .error failure => .failed failure

/-- The files after a run that found the given files. -/
def Outcome.filesAfter (outcome : Outcome) (files : FileSystem) : FileSystem :=
  match outcome.written with
  | none => files
  | some (path, text) => (save files path text).toOption.getD files

/-! ## (3) Commands -/

/-- Print a schema. -/
def inspect (files : FileSystem) (request : Inspection) : Outcome :=
  let loaded :=
    if request.isAsLoaded then loadSchema files request.schema
    else loadRenamed files request.schema
  match loaded with
  | .error failure => .failed failure
  | .ok schema => deliver files request.out schema.view.renderIndented

/-- The line that reports a document that failed. -/
def notice (origin : String) (error : TranscodingError) : String :=
  s!"✗ {origin}: {error.message}\n"

/-- What becomes of each of the input documents, in order. -/
def results (schema : Schema) (direction : Direction) (documents : List InputDocument) :
    List (Except TranscodingError Value) :=
  documents.map fun document => schema.transcode direction document.value

/-- The documents that came out of input documents, and the input documents that failed. -/
def sortOut : List (InputDocument × Except TranscodingError Value) →
    List Json × List (String × TranscodingError)
  | [] => ([], [])
  | (document, result) :: rest =>
      let (values, failures) := sortOut rest
      match result with
      | .ok value => (value.toJson :: values, failures)
      | .error error => (values, (document.origin, error) :: failures)

/-- The text of the results. -/
def resultText (isLineByLine : Bool) (values : List Json) : String :=
  if isLineByLine then "\n".intercalate (values.map Json.render)
  else (Json.array values).renderIndented

/-- Report what has become of the input documents, and write what came out of them. -/
def conclude (files : FileSystem) (request : Transcription) (documents : List InputDocument)
    (results : List (Except TranscodingError Value)) : Outcome :=
  let (values, failures) := sortOut (documents.zip results)
  match failures, request.stopsAtFailure with
  -- nothing is written then, not even the results of the documents before
  | (origin, error) :: _, true =>
      { Outcome.failed s!"stopped at first failure ({origin})" with notices := notice origin error }
  | _, _ =>
      let delivered := deliver files request.out (resultText request.isLineByLine values)
      let failure :=
        if failures.isEmpty then none
        else some s!"{failures.length} of {documents.length} document(s) failed"
      { delivered with
        notices := String.join (failures.map fun (origin, error) => notice origin error)
        failure := delivered.failure <|> failure }

/-- Carry input documents through a schema. -/
def transcodeAll (files : FileSystem) (request : Transcription) (schema : Schema)
    (documents : List InputDocument) : Outcome :=
  conclude files request documents (results schema request.direction documents)

/-- Carry the documents of the inputs through a schema. -/
def transcode (language : FilterLanguage) (files : FileSystem) (request : Transcription) :
    Outcome :=
  match loadRenamed files request.schema with
  | .error failure => .failed failure
  | .ok schema =>
      match allInputsOf language files request with
      | .error failure => .failed failure
      | .ok documents => transcodeAll files request schema documents

/-- **Run a command** with filters of a language. -/
def runWith (language : FilterLanguage) (files : FileSystem) : Command → Outcome
  | .inspect request => inspect files request
  | .transcode request => transcode language files request

end WireSchema.CommandLine

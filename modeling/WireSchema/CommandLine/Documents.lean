import WireSchema.CommandLine.Command
import WireSchema.FilterLanguage
import WireSchema.Glob.Matches
import WireSchema.Json.Pointer
import WireSchema.Text.Blank
import WireSchema.Value

/-! # Input documents

The inputs of a transcription name files; every file holds one document, or one document on each
line that is not blank. Of every document a pointer may take a part, which a filter may turn into
any number of documents. The language of the filters is left open. The first thing that is wrong
ends the run. -/

namespace WireSchema.CommandLine

/-- A document with the place that it comes from. -/
structure InputDocument where
  /-- The path of its file, with its number if the file holds a document per line. -/
  origin : String
  /-- The document. -/
  value : Value

/-! ## (1) Files -/

/-- The files that an input names. -/
def filesOf (files : FileSystem) (input : String) : Except String (List String) :=
  if Glob.isGlob input then
    match Glob.parse input with
    | .error problem => .error problem.message
    | .ok glob =>
        match glob.matchingPaths files with
        | [] => .error s!"glob pattern matched no files: {input}"
        | paths => .ok paths
  else .ok [input]

/-- The files that all inputs name. -/
def allFilesOf (files : FileSystem) (inputs : List String) : Except String (List String) :=
  (inputs.mapM (filesOf files)).map List.flatten |>.mapError fun problem =>
    s!"failed to resolve input file paths: {problem}"

/-! ## (2) Lines -/

/-- A line without the carriage return at its end. -/
def withoutReturn (line : List Char) : List Char :=
  if line.getLast? = some '\r' then line.dropLast else line

/-- The lines of a text. A line ends with a line feed, perhaps behind a carriage return, or with the
text. -/
def lines (text : List Char) : List (List Char) :=
  let parts := splitWhere (· == '\n') text
  let last := parts.getLast?.getD []
  -- the last line is not ended by a line feed, so it keeps its carriage return
  parts.dropLast.map withoutReturn ++ (if last.isEmpty then [] else [last])

/-- The documents on the lines from a position on; blank lines hold none. -/
def lineDocuments (path : String) : Nat → List (List Char) → Except String (List Json)
  | _, [] => .ok []
  | position, line :: rest =>
      if line.all Text.isBlank then lineDocuments path (position + 1) rest
      else do
        let document ← (Json.parse (String.ofList line)).mapError fun error =>
          s!"failed to parse NDJSON line {position} ({path}): {error.message}"
        let documents ← lineDocuments path (position + 1) rest
        return document :: documents

/-- The documents in the text of a file, with the places that they come from. -/
def documentsOf (request : Transcription) (path text : String) :
    Except String (List (String × Json)) := do
  if request.isLineByLine then
    let documents ← lineDocuments path 1 (lines text.toList)
    -- documents are numbered among themselves, blank lines left out
    return documents.zipIdx.map fun (document, index) =>
      (s!"{path}:{index + 1}", document)
  else
    let document ← (Json.parse text).mapError fun error =>
      s!"failed to parse JSON source file ({path}): {error.message}"
    return [(path, document)]

/-! ## (3) Parts -/

/-- The part of a document that a pointer takes, if there is a pointer. -/
def partOf (pointer : Option String) (origin : String) (document : Json) : Except String Json :=
  match pointer with
  | none => .ok document
  | some pointer =>
      match Json.resolve? document pointer with
      | some part => .ok part
      | none => .error s!"JSON pointer {pointer} matched nothing in {origin}"

/-- The documents that a filter makes of one, if there is a filter. -/
def filtered (language : FilterLanguage) (filter : Option String) (origin : String)
    (document : Json) : Except String (List Json) :=
  match filter with
  | none => .ok [document]
  | some filter =>
      (language.apply filter document).mapError fun failure =>
        s!"failed to apply jq expression to {origin}: {failure.message filter}"

/-- The input documents that a document of a file gives. -/
def prepared (language : FilterLanguage) (request : Transcription) (origin : String)
    (document : Json) : Except String (List InputDocument) := do
  let part ← partOf request.pointer origin document
  let documents ← filtered language request.filter origin part
  return documents.map fun document => ⟨origin, Value.ofJson document⟩

/-- The input documents of a file. -/
def inputsOf (language : FilterLanguage) (files : FileSystem) (request : Transcription)
    (path : String) : Except String (List InputDocument) := do
  let text ← (files.read path).mapError fun problem =>
    s!"failed to read source file ({path}): {problem.message}"
  let documents ← documentsOf request path text
  return (← documents.mapM fun (origin, document) =>
    prepared language request origin document).flatten

/-- All input documents of a transcription. -/
def allInputsOf (language : FilterLanguage) (files : FileSystem) (request : Transcription) :
    Except String (List InputDocument) := do
  let paths ← allFilesOf files request.inputs
  return (← paths.mapM (inputsOf language files request)).flatten

end WireSchema.CommandLine

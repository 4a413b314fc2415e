import WireSchema.Proofs.CommandLine.Lines
import WireSchema.Proofs.CommandLine.Transcription
import WireSchema.Proofs.FileSystem
import WireSchema.Proofs.RoundTrip.Documents

/-! # There and back through files

Documents on lines are encoded into one file, and decoded from there into another one. Both files
hold a line for each document, in the order of the documents, and what stands on the lines of the
second one are the documents, tidied (`run_encode_decode`). -/

namespace WireSchema.CommandLine

open List (Forall₂)
open Value (SameUpToOrder)

variable {language : FilterLanguage} {files : FileSystem} {request : Transcription}
  {schema : Schema} {direction : Direction}

/-! ## (1) Runs in which every document goes through -/

/-- What a value becomes when it is carried through a schema and written. -/
def Becomes (schema : Schema) (direction : Direction) (value : Value) (json : Json) : Prop :=
  ∃ output, schema.transcode direction value = .ok output ∧ output.toJson = json

/-- Where every document becomes something, this is what comes out, and no document fails. -/
theorem transcoded_of_becomes {documents : List InputDocument} {values : List Json}
    (become : Forall₂ (fun document => Becomes schema direction document.value) documents values) :
    transcoded schema direction documents = values ∧ failing schema direction documents = [] := by
  induction become with
  | nil => exact ⟨rfl, rfl⟩
  | @cons document json documents values becomes _ induction =>
      obtain ⟨output, transcodes, rfl⟩ := becomes
      obtain ⟨others, none⟩ := induction
      rw [transcoded, List.filterMap_cons, ← transcoded, others, failing, List.filter_cons,
        ← failing, none, transcodes]
      exact ⟨rfl, rfl⟩

/-- **A run saves all results** when every document goes through, and does not fail. -/
theorem run_of_becomes (loads : SchemaLoads files request.schema schema)
    {documents : List InputDocument}
    (gathered : Gathered (InputGives language files request) request.inputs documents)
    {values : List Json}
    (become : Forall₂ (fun document => Becomes schema request.direction document.value) documents
      values)
    {path : String} (out : request.out = some path) (writable : IsWritable files (some path)) :
    (runWith language files (.transcode request)).failure = none ∧
      save files path (resultText request.isLineByLine values) =
        .ok ((runWith language files (.transcode request)).filesAfter files) := by
  obtain ⟨same, none⟩ := transcoded_of_becomes become
  have writableOut : IsWritable files request.out := by rw [out]; exact writable
  obtain ⟨writes, fails⟩ := transcodeAll_of_goesOn (.inr none) writableOut
  rw [same, out] at writes
  rw [none] at fails
  obtain ⟨after, saves⟩ := writable path rfl (resultText request.isLineByLine values)
  rw [run_of_loads loads gathered]
  refine ⟨fails, ?_⟩
  rw [Outcome.filesAfter, writes.2]
  show save files path _ = .ok ((save files path _).toOption.getD files)
  rw [saves]
  rfl

/-! ## (2) Inputs of documents on lines -/

/-- A request that takes documents from files as they are. -/
structure TakesWhole (request : Transcription) : Prop where
  /-- No part is taken. -/
  pointer : request.pointer = none
  /-- Nothing is filtered. -/
  filter : request.filter = none

/-- A source gives its document. -/
theorem sourceGives_iff (whole : TakesWhole request) {source : String × String}
    {documents : List InputDocument} :
    SourceGives language request source documents ↔ ∃ json, Json.parse source.2 = .ok json ∧
      documents = [⟨source.1, Value.ofJson json⟩] := by
  rw [SourceGives]
  simp [whole.pointer, whole.filter, Takes, FilterGives]

/-- **The input documents are read** from the sources in files. -/
theorem exists_parse_of_mem (whole : TakesWhole request) {documents : List InputDocument}
    (gathered : Gathered (InputGives language files request) request.inputs documents)
    {document : InputDocument} (held : document ∈ documents) :
    ∃ text json, Json.parse text = .ok json ∧ document.value = Value.ofJson json := by
  obtain ⟨input, _, ofInput, ⟨paths, _, fromPaths⟩, held⟩ := exists_gives_of_mem gathered held
  obtain ⟨path, _, ofPath, ⟨text, _, fromSources⟩, held⟩ := exists_gives_of_mem fromPaths held
  obtain ⟨source, _, ofSource, given, held⟩ := exists_gives_of_mem fromSources held
  obtain ⟨json, parses, rfl⟩ := (sourceGives_iff whole).mp given
  cases List.mem_singleton.mp held
  exact ⟨source.2, json, parses, rfl⟩

/-- A document **reads back** when its compact text is read as the document. -/
def ReadsBack (json : Json) : Prop := Json.parse json.render = .ok json

/-- **The documents of a result** are the input documents of the file that it is in, if they read
back. -/
theorem exists_gathered_resultText (whole : TakesWhole request)
    (lineByLine : request.isLineByLine = true) {path : String} (inputs : request.inputs = [path])
    (noGlob : Glob.isGlob path = false) {values : List Json}
    (reads : files.read path = .ok (resultText true values))
    (readBack : ∀ json ∈ values, ReadsBack json) :
    ∃ documents, Gathered (InputGives language files request) request.inputs documents ∧
      documents.map InputDocument.value = values.map Value.ofJson := by
  refine ⟨values.zipIdx.map fun entry => ⟨sourceName true path entry.2, Value.ofJson entry.1⟩, ?_,
    ?_⟩
  · have named : filesOf files path = .ok [path] := by rw [filesOf, noGlob]; rfl
    rw [inputs]
    refine gathered_singleton ⟨[path], named, gathered_singleton ⟨_, reads, ?_⟩⟩
    rw [lineByLine, sources, documentTexts_resultText, List.zipIdx_map, List.map_map]
    refine gathered_of_forall₂ ?_
    rw [List.forall₂_map_left_iff, List.forall₂_map_right_iff, List.forall₂_same]
    rintro ⟨json, position⟩ held
    have heldToo : json ∈ values := List.fst_mem_of_mem_zipIdx held
    exact (sourceGives_iff whole).mpr ⟨json, readBack json heldToo, rfl⟩
  · rw [List.map_map]
    show values.zipIdx.map (Value.ofJson ∘ Prod.fst) = values.map Value.ofJson
    rw [← List.map_map, List.zipIdx_map_fst]

/-! ## (3) Both runs -/

/-- The request to encode the documents on lines of inputs into a file. -/
def encodingInto (schemaPath : String) (inputs : List String) (out : String)
    (stopsAtFailure : Bool) : Transcription where
  direction := .encode
  schema := schemaPath
  inputs := inputs
  isLineByLine := true
  pointer := none
  filter := none
  out := some out
  stopsAtFailure := stopsAtFailure

/-- The request to decode the documents on lines of a file into another one. -/
def decodingInto (schemaPath : String) (input out : String) (stopsAtFailure : Bool) :
    Transcription where
  direction := .decode
  schema := schemaPath
  inputs := [input]
  isLineByLine := true
  pointer := none
  filter := none
  out := some out
  stopsAtFailure := stopsAtFailure

section RoundTrip

variable {schemaPath encodedPath decodedPath schemaText : String} {applied : Schema}
  {inputs : List String} {documents : List InputDocument}

/-- What becomes of each input document on the way there and on the way back. -/
theorem exists_back_of_gathered (parses : SchemaDocument.parse schemaText = .ok schema)
    (applies : schema.applyRenames = .ok applied)
    (different : ∀ truthy falsy, .booleanText truthy falsy ∈ schema.parts true → truthy ≠ falsy)
    (whole : TakesWhole request)
    (gathered : Gathered (InputGives language files request) request.inputs documents)
    (encodes : ∀ document ∈ documents, ∃ written, applied.encode document.value = .ok written)
    (plain : ∀ document ∈ documents, ∀ inner timestamp,
      Schema.Place .decoded schema document.value .timestampText inner →
        inner.timestamp? = some timestamp → timestamp.HasPlainYear) :
    ∀ document ∈ documents, ∃ written back, applied.encode document.value = .ok written ∧
      applied.decode (Value.ofJson written.toJson) = .ok back ∧
      SameUpToOrder (Value.ofJson back.toJson)
        (schema.tidied .decoded Value.rewritten document.value) := by
  intro document held
  obtain ⟨_, _, describes⟩ := bind_eq_ok_iff.mp parses
  have documented := SchemaDocument.documented_of_toSchema (mapError_eq_ok_iff.mp describes)
  obtain ⟨text, json, readsText, isValue⟩ := exists_parse_of_mem whole gathered held
  have isJson : document.value.IsJson := by
    rw [isValue]
    exact Value.isJson_ofJson json
  have distinct : document.value.HasDistinctKeys := by
    rw [isValue]
    exact Value.hasDistinctKeys_of_parse readsText
  obtain ⟨written, encodes⟩ := encodes document held
  obtain ⟨back, decodes, same⟩ := Schema.exists_document_back documented applies different isJson
    distinct (plain document held) encodes
  exact ⟨written, back, encodes, decodes, same⟩

/-- **There and back through files.** Where all documents encode, their encoding into a file and the
decoding from there into another file both succeed. Afterwards the one file holds the compact text
of each encoded document on a line of its own, and the other one a line for each document that reads
as the document without the undeclared keys of closed structs and with its timestamps as they are
written. -/
theorem run_encode_decode (language : FilterLanguage) (stops stopsAgain : Bool)
    (reads : files.read schemaPath = .ok schemaText)
    (parses : SchemaDocument.parse schemaText = .ok schema)
    (applies : schema.applyRenames = .ok applied)
    (different : ∀ truthy falsy, .booleanText truthy falsy ∈ schema.parts true → truthy ≠ falsy)
    (gathered : Gathered
      (InputGives language files (encodingInto schemaPath inputs encodedPath stops)) inputs
      documents)
    (encodes : ∀ document ∈ documents, ∃ written, applied.encode document.value = .ok written)
    (plain : ∀ document ∈ documents, ∀ inner timestamp,
      Schema.Place .decoded schema document.value .timestampText inner →
        inner.timestamp? = some timestamp → timestamp.HasPlainYear)
    (readBack : ∀ document ∈ documents, ∀ written, applied.encode document.value = .ok written →
      ReadsBack written.toJson ∧
        ∀ back, applied.decode (Value.ofJson written.toJson) = .ok back → ReadsBack back.toJson)
    (noGlob : Glob.isGlob encodedPath = false)
    (apart : Path.location files.workingDirectory schemaPath ≠
      Path.location files.workingDirectory encodedPath)
    (apartToo : Path.location files.workingDirectory encodedPath ≠
      Path.location files.workingDirectory decodedPath)
    (writable : IsWritable files (some encodedPath))
    (writableThen : ∀ text between, save files encodedPath text = .ok between →
      IsWritable between (some decodedPath)) :
    let first :=
      runWith language files (.transcode (encodingInto schemaPath inputs encodedPath stops))
    let between := first.filesAfter files
    let second :=
      runWith language between
        (.transcode (decodingInto schemaPath encodedPath decodedPath stopsAgain))
    let after := second.filesAfter between
    first.failure = none ∧ second.failure = none ∧
      ∃ encodedText decodedText, after.read encodedPath = .ok encodedText ∧
        after.read decodedPath = .ok decodedText ∧
        Forall₂ (fun document line => ∃ written, applied.encode document.value = .ok written ∧
          line = written.toJson.compact) documents (lines encodedText.toList) ∧
        Forall₂ (fun document line => ∃ json, Json.parse (String.ofList line) = .ok json ∧
          SameUpToOrder (Value.ofJson json)
            (schema.tidied .decoded Value.rewritten document.value))
          documents (lines decodedText.toList) := by
  intro first between second after
  have _ : Nonempty Value := ⟨.null⟩
  choose! written back encodes decodes same using
    exists_back_of_gathered parses applies different ⟨rfl, rfl⟩ gathered encodes plain
  -- the first run writes what the documents are encoded as
  have become : Forall₂ (fun document => Becomes applied .encode document.value) documents
      (documents.map fun document => (written document).toJson) := by
    rw [List.forall₂_map_right_iff, List.forall₂_same]
    exact fun document held => ⟨_, encodes document held, rfl⟩
  obtain ⟨succeeds, saves⟩ :=
    run_of_becomes ⟨_, reads, _, parses, applies⟩ gathered become rfl writable
  -- the second run finds the same schema, and reads what the first one has written
  have readsEncoded := read_of_save saves
  have readsSchema := read_of_save_other saves apart reads
  have readsBack : ∀ json ∈ documents.map fun document => (written document).toJson,
      ReadsBack json :=
    List.forall_mem_map.mpr fun document held =>
      (readBack document held _ (encodes document held)).1
  obtain ⟨inner, gatheredInner, values⟩ := @exists_gathered_resultText language between
    (decodingInto schemaPath encodedPath decodedPath stopsAgain) ⟨rfl, rfl⟩ rfl _ rfl noGlob _
    readsEncoded readsBack
  have becomeBack : Forall₂ (fun document => Becomes applied .decode document.value) inner
      (documents.map fun document => (back document).toJson) := by
    rw [← List.forall₂_map_left_iff, values, List.map_map, List.forall₂_map_left_iff,
      List.forall₂_map_right_iff, List.forall₂_same]
    exact fun document held => ⟨_, decodes document held, rfl⟩
  obtain ⟨succeedsAgain, savesAgain⟩ := run_of_becomes ⟨_, readsSchema, _, parses, applies⟩
    gatheredInner becomeBack rfl (writableThen _ _ saves)
  -- the second run leaves the file of the first one as it is
  have apartThen : Path.location between.workingDirectory encodedPath ≠
      Path.location between.workingDirectory decodedPath := by
    rw [(keeps_of_save saves).workingDirectory]
    exact apartToo
  refine ⟨succeeds, succeedsAgain, _, _, read_of_save_other savesAgain apartThen readsEncoded,
    read_of_save savesAgain, forall₂_lines_resultText ?_, forall₂_lines_resultText ?_⟩
  · exact fun document held => ⟨_, encodes document held, rfl⟩
  · intro document held
    have reads := (readBack document held _ (encodes document held)).2 _ (decodes document held)
    exact ⟨_, reads, same document held⟩

end RoundTrip

/-! ## (4) An order -/

/-- The text of a schema for orders. -/
def orderText : String :=
  "\x7b\"struct\":\x7b\"fields\":[" ++
    "\x7b\"name\":\"at\",\"type\":\x7b\"codec\":\"date-from-string\"\x7d,\"rename\":\"t\"\x7d," ++
    "\x7b\"name\":\"ok\",\"type\":\x7b\"codec\":\x7b\"boolean-from-literal\":" ++
    "\x7b\"true\":\"Y\",\"false\":\"N\"\x7d\x7d\x7d\x7d]\x7d\x7d"

/-- The schema for orders. -/
def order : Schema := .struct
  [⟨"at", .timestampText, false, false, some "t", []⟩,
    ⟨"ok", .booleanText "Y" "N", false, false, none, []⟩] none

/-- A file with one order between blank lines, beside the file of the schema. -/
def orderFiles : FileSystem where
  root := .directory
    [("in", .file (some "\n\x7b\"x\":1,\"at\":\"1970-01-01T01:00:00+01:00\",\"ok\":true\x7d\n \n")),
      ("schema", .file (some orderText))]
  workingDirectory := []

/-- The order in the file. -/
def orderDocument : InputDocument where
  origin := "in:1"
  value := .object [("x", .number (.integer 1)), ("at", .string "1970-01-01T01:00:00+01:00"),
    ("ok", .bool true)]

/-- The schema of the example is what its text is read as. -/
theorem parse_orderText : SchemaDocument.parse orderText = .ok order := by
  rw [SchemaDocument.parse, SchemaDocument.read]
  delta orderText
  simp only [String.toList_append]
  -- a literal is made of its characters; to find them by decoding it would be most of the work
  iterate 4 rw [String.toList_ofList]
  rfl

/-- The encoding command of the example gathers the one document of its input file. -/
theorem gathered_orderFiles :
    Gathered (InputGives language orderFiles (encodingInto "schema" ["in"] "there" true)) ["in"]
      [orderDocument] := by
  -- the file holds one source, for blank lines hold none
  have onLine : sources true "in"
      "\n\x7b\"x\":1,\"at\":\"1970-01-01T01:00:00+01:00\",\"ok\":true\x7d\n \n" =
        [("in:1", "\x7b\"x\":1,\"at\":\"1970-01-01T01:00:00+01:00\",\"ok\":true\x7d")] := by
    rw [sources, documentTexts, String.toList_ofList]
    rfl
  have parses : Json.parse "\x7b\"x\":1,\"at\":\"1970-01-01T01:00:00+01:00\",\"ok\":true\x7d" =
      .ok (.object [("x", .number (.integer 1)), ("at", .string "1970-01-01T01:00:00+01:00"),
        ("ok", .bool true)]) := by
    rw [Json.parse, Json.parseToDepth, String.toList_ofList]
    rfl
  refine gathered_singleton ⟨["in"], by decide, gathered_singleton ⟨_, rfl, ?_⟩⟩
  change Gathered _ (sources true "in" _) _
  rw [onLine]
  exact gathered_singleton ⟨_, _, _, parses, rfl, rfl, rfl⟩

/-- The only timestamp of the order is its own. -/
theorem eq_of_place_orderDocument {inner : Value}
    (place : Schema.Place .decoded order orderDocument.value .timestampText inner) :
    inner = .string "1970-01-01T01:00:00+01:00" := by
  rw [order, orderDocument] at place
  cases place with
  | @member _ _ _ key _ _ _ found below =>
      simp only [Members.find?] at found
      split at found
      · next isNote =>
          subst isNote
          cases found
          cases below
      · split at found
        · next isStamp =>
            subst isStamp
            cases found
            cases below
            rfl
        · obtain ⟨isFlag, found⟩ := Option.ite_none_right_eq_some.mp found
          subst isFlag
          cases found
          cases below

/-- The document of the example is encoded with its date as a timestamp and its flag as a literal.
-/
theorem encode_orderDocument : order.renamed.encode orderDocument.value =
    .ok (.object [("t", .string "1970-01-01T00:00:00.000Z"), ("ok", .string "Y")]) := by
  decide +kernel

/-- What the document of the example is encoded to is decoded to a date and a flag. -/
theorem decode_orderDocument : order.renamed.decode
    (.object [("t", .string "1970-01-01T00:00:00.000Z"), ("ok", .string "Y")]) =
      .ok (.object [("at", .date ⟨0, 0⟩), ("ok", .bool true)]) := by decide +kernel

/-- The tidied form of the document of the example spells the same instant in UTC. -/
theorem tidied_orderDocument : order.tidied .decoded Value.rewritten orderDocument.value =
    .object [("at", .string "1970-01-01T00:00:00.000Z"), ("ok", .bool true)] := by
  decide +kernel

/-- The timestamp of the order is of the year 1970. -/
theorem hasPlainYear_orderDocument {inner : Value} {timestamp : Timestamp}
    (place : Schema.Place .decoded order orderDocument.value .timestampText inner)
    (stands : inner.timestamp? = some timestamp) : timestamp.HasPlainYear := by
  have denotes : (Value.string "1970-01-01T01:00:00+01:00").timestamp? = some ⟨0, 0⟩ := by
    decide +kernel
  rw [eq_of_place_orderDocument place, denotes] at stands
  cases stands
  exact ⟨by decide, by decide⟩

/-- The document that the order is encoded as reads back, and so does the one that comes back. -/
theorem readsBack_orderDocument {written : Value}
    (encodes : order.renamed.encode orderDocument.value = .ok written) :
    ReadsBack written.toJson ∧ ∀ back,
      order.renamed.decode (Value.ofJson written.toJson) = .ok back → ReadsBack back.toJson := by
  cases encode_orderDocument.symm.trans encodes
  refine ⟨?_, fun back decodes => ?_⟩
  · rw [ReadsBack, Json.parse, Json.parseToDepth, Json.render, String.toList_ofList]
    rfl
  · cases decode_orderDocument.symm.trans decodes
    rw [ReadsBack, Json.parse, Json.parseToDepth, Json.render, String.toList_ofList]
    rfl

/-- The order comes back from the file between the blank lines: its timestamp is written in
universal time, its flag is the one that it was, and the number besides is gone. -/
theorem run_encode_decode_order :
    let first :=
      runWith .droppingNull orderFiles (.transcode (encodingInto "schema" ["in"] "there" true))
    let between := first.filesAfter orderFiles
    let second :=
      runWith .droppingNull between (.transcode (decodingInto "schema" "there" "back" true))
    let after := second.filesAfter between
    second.failure = none ∧ ∃ text line json, after.read "back" = .ok text ∧
      lines text.toList = [line] ∧ Json.parse (String.ofList line) = .ok json ∧
        SameUpToOrder (Value.ofJson json)
          (.object [("at", .string "1970-01-01T00:00:00.000Z"), ("ok", .bool true)]) := by
  have reads : orderFiles.read "schema" = .ok orderText := rfl
  have different : ∀ truthy falsy,
      Schema.booleanText truthy falsy ∈ order.parts true → truthy ≠ falsy := by
    intro truthy falsy part
    simp [order, Schema.parts, Schema.partsOfFields, Schema.partsOfIndex, Schema.timestampText,
      Schema.booleanText] at part
    rw [part.1, part.2]
    decide
  have writable : IsWritable orderFiles (some "there") := by
    rintro _ ⟨⟩ text
    exact ⟨_, rfl⟩
  have writableThen : ∀ text between, save orderFiles "there" text = .ok between →
      IsWritable between (some "back") := by
    rintro text between saves _ ⟨⟩ other
    cases saves
    exact ⟨_, rfl⟩
  obtain ⟨_, succeeds, _, text, _, readsText, _, onLines⟩ :=
    run_encode_decode .droppingNull true true reads parse_orderText
      (rfl : order.applyRenames = .ok order.renamed) different gathered_orderFiles
      (List.forall_mem_singleton.mpr ⟨_, encode_orderDocument⟩)
      (List.forall_mem_singleton.mpr fun _ _ => hasPlainYear_orderDocument)
      (List.forall_mem_singleton.mpr fun _ => readsBack_orderDocument)
      (by decide) (by decide) (by decide) writable writableThen
  obtain ⟨line, others, ⟨json, readsLine, same⟩, none, onLine⟩ :=
    List.forall₂_cons_left_iff.mp onLines
  cases List.forall₂_nil_left_iff.mp none
  rw [tidied_orderDocument] at same
  exact ⟨succeeds, text, line, json, readsText, onLine, readsLine, same⟩

end WireSchema.CommandLine

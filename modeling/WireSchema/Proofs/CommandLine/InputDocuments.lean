import WireSchema.CommandLine.Documents
import WireSchema.Proofs.CommandLine.Filtering

/-! # Which documents go in

The documents of a transcription, told without the order in which they are looked for: those of the
inputs in their order, in the files of each input, in the sources of each file (the file, or its
lines that are not blank), in what a filter makes of each. Either they are all there
(`allInputsOf_eq_ok_iff`), or something on the way to one of them fails
(`allInputsOf_eq_error_iff`). -/

namespace WireSchema.CommandLine

/-! ## (1) Sources -/

/-- The texts in a file that spell documents: the whole text, or the lines that are not blank. -/
def documentTexts (isLineByLine : Bool) (text : String) : List String :=
  if isLineByLine then
    ((lines text.toList).filter fun line => !line.all Text.isBlank).map String.ofList
  else [text]

/-- The name of a source in a file: the path, with the number of the source if there may be more. -/
def sourceName (isLineByLine : Bool) (path : String) (position : Nat) : String :=
  if isLineByLine then s!"{path}:{position + 1}" else path

/-- **The sources** in a file: texts with the places that they come from. -/
def sources (isLineByLine : Bool) (path text : String) : List (String × String) :=
  (documentTexts isLineByLine text).zipIdx.map fun (source, position) =>
    (sourceName isLineByLine path position, source)

variable {language : FilterLanguage} {files : FileSystem} {request : Transcription}

/-- What is taken of a document: the part that a pointer leads to, or all of it without pointer. -/
def Takes (pointer : Option String) (json part : Json) : Prop :=
  match pointer with
  | none => part = json
  | some path => json.resolve? path = some part

/-- What becomes of a document: what a filter gives for it, or the document itself without a
filter. -/
def FilterGives (language : FilterLanguage) (filter : Option String) (json : Json)
    (outputs : List Json) : Prop :=
  match filter with
  | none => outputs = [json]
  | some text => language.Gives text json outputs

/-- What a source gives: its document is read, its part is taken, and the filter gives the input
documents in order. -/
def SourceGives (language : FilterLanguage) (request : Transcription) (source : String × String)
    (documents : List InputDocument) : Prop :=
  ∃ json part outputs, Json.parse source.2 = .ok json ∧ Takes request.pointer json part ∧
    FilterGives language request.filter part outputs ∧
    documents = outputs.map fun output => ⟨source.1, Value.ofJson output⟩

/-- What the file at a path gives: all that its sources give. -/
def FileGives (language : FilterLanguage) (files : FileSystem) (request : Transcription)
    (path : String) (documents : List InputDocument) : Prop :=
  ∃ text, files.read path = .ok text ∧
    Gathered (SourceGives language request) (sources request.isLineByLine path text) documents

/-- What an input gives: all that the files give that it names. -/
def InputGives (language : FilterLanguage) (files : FileSystem) (request : Transcription)
    (input : String) (documents : List InputDocument) : Prop :=
  ∃ paths, filesOf files input = .ok paths ∧
    Gathered (FileGives language files request) paths documents

/-! ## (2) Failures -/

/-- An input names a file. -/
def NamesFile (files : FileSystem) (request : Transcription) (path : String) : Prop :=
  ∃ input ∈ request.inputs, ∃ paths, filesOf files input = .ok paths ∧ path ∈ paths

/-- A file that an input names holds a source. -/
def HoldsSource (files : FileSystem) (request : Transcription) (source : String × String) : Prop :=
  ∃ path text, NamesFile files request path ∧ files.read path = .ok text ∧
    source ∈ sources request.isLineByLine path text

/-- **Something fails** on the way to the input documents. -/
inductive InputFails (language : FilterLanguage) (files : FileSystem) (request : Transcription) :
    Prop
  /-- An input names no files. -/
  | unresolved {input problem : String} (listed : input ∈ request.inputs)
      (fails : filesOf files input = .error problem)
  /-- A file cannot be read. -/
  | unread {path : String} {problem : FileProblem} (named : NamesFile files request path)
      (fails : files.read path = .error problem)
  /-- A source spells no document. -/
  | unparsed {source : String × String} {problem : Json.SyntaxError}
      (held : HoldsSource files request source) (fails : Json.parse source.2 = .error problem)
  /-- The pointer leads nowhere in a document. -/
  | unmatched {source : String × String} {json : Json} {pointer : String}
      (held : HoldsSource files request source) (parses : Json.parse source.2 = .ok json)
      (wanted : request.pointer = some pointer) (fails : json.resolve? pointer = none)
  /-- The filter fails on a document, or on the part of it that the pointer leads to. -/
  | refused {source : String × String} {json part : Json} {filter : String}
      (held : HoldsSource files request source) (parses : Json.parse source.2 = .ok json)
      (taken : Takes request.pointer json part) (wanted : request.filter = some filter)
      (fails : language.Fails filter part)

/-! ## (3) Without regard to messages -/

/-- What a source gives, without regard to errors. -/
def sourceDocuments? (language : FilterLanguage) (request : Transcription)
    (source : String × String) : Option (List InputDocument) :=
  (Json.parse source.2).toOption.bind fun json =>
    (prepared language request source.1 json).toOption

/-- What a file gives, without regard to errors. -/
def fileDocuments? (language : FilterLanguage) (files : FileSystem) (request : Transcription)
    (path : String) : Option (List InputDocument) :=
  (files.read path).toOption.bind fun text =>
    gather? (sourceDocuments? language request) (sources request.isLineByLine path text)

/-- What an input gives, without regard to errors. -/
def inputDocuments? (language : FilterLanguage) (files : FileSystem) (request : Transcription)
    (input : String) : Option (List InputDocument) :=
  (filesOf files input).toOption.bind fun paths =>
    gather? (fileDocuments? language files request) paths

/-- The lines that are not blank are parsed one by one. -/
theorem toOption_lineDocuments (path : String) (position : Nat) (lines : List (List Char)) :
    (lineDocuments path position lines).toOption =
      ((lines.filter fun line => !line.all Text.isBlank).map String.ofList).mapM
        fun text => (Json.parse text).toOption := by
  induction lines generalizing position with
  | nil => rfl
  | cons line rest induction =>
      rw [lineDocuments]
      by_cases blank : line.all Text.isBlank = true
      · rw [if_pos blank, induction, List.filter_cons_of_neg (by simp [blank])]
      · -- numbers of lines stand in errors only, which do not count here
        rw [if_neg blank, List.filter_cons_of_pos (by simp [blank]), List.map_cons, List.mapM_cons,
          toOption_bind, toOption_mapError]
        cases Json.parse (String.ofList line) with
        | error problem => rfl
        | ok document =>
            rw [← induction (position + 1)]
            cases lineDocuments path (position + 1) rest <;> rfl

/-- Parsing texts and then numbering the documents is numbering the texts and then parsing them. -/
theorem map_zipIdx_mapM {α β γ : Type} (parse : α → Option β) (name : Nat → γ) (texts : List α)
    (start : Nat) :
    (texts.mapM parse).map (fun documents =>
        (documents.zipIdx start).map fun (document, position) => (name position, document)) =
      ((texts.zipIdx start).map fun (text, position) => (name position, text)).mapM
        fun source => (parse source.2).map fun document => (source.1, document) := by
  induction texts generalizing start with
  | nil => rfl
  | cons text rest induction =>
      have later := induction (start + 1)
      rw [List.mapM_cons, List.zipIdx_cons, List.map_cons, List.mapM_cons, ← later]
      cases parse text with
      | none => rfl
      | some document => cases rest.mapM parse <;> rfl

/-- The sources in a text are parsed one by one. -/
theorem toOption_documentsOf (path text : String) :
    (documentsOf request path text).toOption =
      (sources request.isLineByLine path text).mapM fun source =>
        (Json.parse source.2).toOption.map fun json => (source.1, json) := by
  rw [documentsOf, sources, ← map_zipIdx_mapM (fun source => (Json.parse source).toOption)]
  cases lineByLine : request.isLineByLine with
  | true =>
      rw [documentTexts]
      simp only [if_true]
      rw [← toOption_lineDocuments path 1, toOption_bind]
      cases lineDocuments path 1 (lines text.toList) <;> rfl
  | false =>
      rw [documentTexts]
      simp only [Bool.false_eq_true, if_false]
      rw [toOption_bind, toOption_mapError, List.mapM_cons, List.mapM_nil]
      cases Json.parse text <;> rfl

/-- Reading a file gives what its sources give. -/
theorem toOption_inputsOf (path : String) :
    (inputsOf language files request path).toOption =
      fileDocuments? language files request path := by
  rw [inputsOf, toOption_bind, toOption_mapError, fileDocuments?]
  refine Option.bind_congr fun text _ => ?_
  have gathers : ∀ found : List (String × Json),
      ((found.mapM fun (origin, document) => prepared language request origin document) >>=
        fun groups => pure groups.flatten).toOption =
        gather? (fun document => (prepared language request document.1 document.2).toOption)
          found :=
    fun found => toOption_flatten_mapM _ found
  rw [toOption_bind, toOption_documentsOf]
  simp only [gathers]
  rw [bind_mapM_gather?]
  simp only [Option.bind_map]
  rfl

/-- Reading all inputs gives what their files give. -/
theorem toOption_allInputsOf :
    (allInputsOf language files request).toOption =
      gather? (inputDocuments? language files request) request.inputs := by
  have paths : (allFilesOf files request.inputs).toOption =
      gather? (fun input => (filesOf files input).toOption) request.inputs := by
    rw [allFilesOf, toOption_mapError, toOption_flatten_mapM]
  have gathers : ∀ found : List String,
      ((found.mapM (inputsOf language files request)) >>=
        fun groups => pure groups.flatten).toOption =
        gather? (fileDocuments? language files request) found := by
    intro found
    rw [← funext toOption_inputsOf]
    exact toOption_flatten_mapM _ found
  -- all files are named before the first one is read, which makes a difference to errors only
  rw [allInputsOf, toOption_bind, paths]
  simp only [gathers]
  exact gather?_gather? _ _

/-! ## (4) Success -/

/-- The part of a document is what is taken of it. -/
theorem partOf_eq_ok_iff {pointer : Option String} {origin : String} {json part : Json} :
    partOf pointer origin json = .ok part ↔ Takes pointer json part := by
  cases pointer with
  | none => exact ⟨fun same => (Except.ok.inj same).symm, fun same => congrArg Except.ok same.symm⟩
  | some path =>
      rw [partOf, Takes]
      cases json.resolve? path <;> simp

/-- Filtering gives what becomes of a document. -/
theorem filtered_eq_ok_iff {filter : Option String} {origin : String} {json : Json}
    {outputs : List Json} :
    filtered language filter origin json = .ok outputs ↔
      FilterGives language filter json outputs := by
  cases filter with
  | none => exact ⟨fun same => (Except.ok.inj same).symm, fun same => congrArg Except.ok same.symm⟩
  | some text =>
      rw [filtered, mapError_eq_ok_iff]
      exact FilterLanguage.apply_eq_ok_iff

/-- A source has documents when it gives them. -/
theorem sourceDocuments?_eq_some_iff {source : String × String} {documents : List InputDocument} :
    sourceDocuments? language request source = some documents ↔
      SourceGives language request source documents := by
  rw [sourceDocuments?, bind_toOption_eq_some_iff, SourceGives]
  refine exists_congr fun json => ?_
  rw [toOption_eq_some_iff, prepared]
  constructor
  · rintro ⟨parses, prepares⟩
    obtain ⟨part, taken, prepares⟩ := bind_eq_ok_iff.mp prepares
    obtain ⟨outputs, given, same⟩ := bind_eq_ok_iff.mp prepares
    cases same
    exact ⟨part, outputs, parses, partOf_eq_ok_iff.mp taken, filtered_eq_ok_iff.mp given, rfl⟩
  · rintro ⟨part, outputs, parses, taken, given, rfl⟩
    refine ⟨parses, ?_⟩
    rw [partOf_eq_ok_iff.mpr taken, ok_bind, filtered_eq_ok_iff.mpr given, ok_bind]
    rfl

/-- A file is read into documents exactly if it gives them. -/
theorem fileDocuments?_eq_some_iff {path : String} {documents : List InputDocument} :
    fileDocuments? language files request path = some documents ↔
      FileGives language files request path documents := by
  rw [fileDocuments?, bind_toOption_eq_some_iff, FileGives]
  refine exists_congr fun text => and_congr_right fun _ => ?_
  rw [gather?_eq_some_iff]
  exact gathered_congr (fun _ _ => sourceDocuments?_eq_some_iff) _ _

/-- An input is read into documents exactly if it gives them. -/
theorem inputDocuments?_eq_some_iff {input : String} {documents : List InputDocument} :
    inputDocuments? language files request input = some documents ↔
      InputGives language files request input documents := by
  rw [inputDocuments?, bind_toOption_eq_some_iff, InputGives]
  refine exists_congr fun paths => and_congr_right fun _ => ?_
  rw [gather?_eq_some_iff]
  exact gathered_congr (fun _ _ => fileDocuments?_eq_some_iff) _ _

/-- **The input documents** are all that the inputs give, in order. -/
theorem allInputsOf_eq_ok_iff {documents : List InputDocument} :
    allInputsOf language files request = .ok documents ↔
      Gathered (InputGives language files request) request.inputs documents := by
  rw [← toOption_eq_some_iff, toOption_allInputsOf, gather?_eq_some_iff]
  exact gathered_congr (fun _ _ => inputDocuments?_eq_some_iff) _ _

/-! ## (5) Failure -/

/-- No part is taken when a pointer leads nowhere. -/
theorem partOf_eq_error_iff {pointer : Option String} {origin : String} {json : Json} :
    (∃ failure, partOf pointer origin json = .error failure) ↔
      ∃ path, pointer = some path ∧ json.resolve? path = none := by
  cases pointer with
  | none => simp [partOf]
  | some path =>
      rw [partOf]
      cases found : json.resolve? path <;> simp [found]

/-- Filtering fails when there is a filter that does. -/
theorem filtered_eq_error_iff {filter : Option String} {origin : String} {json : Json} :
    (∃ failure, filtered language filter origin json = .error failure) ↔
      ∃ text, filter = some text ∧ language.Fails text json := by
  cases filter with
  | none => simp [filtered]
  | some text =>
      rw [filtered]
      simp [mapError_eq_error_iff, ← FilterLanguage.apply_eq_error_iff]

/-- A source gives nothing when its document cannot be read, its part taken or its filter run. -/
theorem sourceDocuments?_eq_none_iff {source : String × String} :
    sourceDocuments? language request source = none ↔
      (∃ problem, Json.parse source.2 = .error problem) ∨
      ∃ json, Json.parse source.2 = .ok json ∧
        ((∃ pointer, request.pointer = some pointer ∧ json.resolve? pointer = none) ∨
          ∃ part, Takes request.pointer json part ∧
            ∃ filter, request.filter = some filter ∧ language.Fails filter part) := by
  rw [sourceDocuments?, bind_toOption_eq_none_iff]
  refine or_congr_right (exists_congr fun json => and_congr_right fun _ => ?_)
  -- first the part is taken, then the filter runs on it
  rw [prepared, toOption_bind, bind_toOption_eq_none_iff, partOf_eq_error_iff]
  simp only [← @partOf_eq_ok_iff request.pointer source.1]
  refine or_congr_right (exists_congr fun part => and_congr_right fun _ => ?_)
  rw [← @filtered_eq_error_iff language request.filter source.1 part, ← toOption_eq_none_iff,
    toOption_bind]
  cases filtered language request.filter source.1 part with
  | error failure => exact ⟨fun _ => rfl, fun _ => rfl⟩
  | ok outputs => exact ⟨nofun, nofun⟩

/-- A file gives no documents exactly if it cannot be read or one of its sources fails. -/
theorem fileDocuments?_eq_none_iff {path : String} :
    fileDocuments? language files request path = none ↔
      (∃ problem, files.read path = .error problem) ∨
      ∃ text, files.read path = .ok text ∧ ∃ source ∈ sources request.isLineByLine path text,
        sourceDocuments? language request source = none := by
  rw [fileDocuments?, bind_toOption_eq_none_iff]
  simp only [gather?_eq_none_iff]

/-- An input gives no documents exactly if its pattern is bad or one of its files fails. -/
theorem inputDocuments?_eq_none_iff {input : String} :
    inputDocuments? language files request input = none ↔
      (∃ problem, filesOf files input = .error problem) ∨
      ∃ paths, filesOf files input = .ok paths ∧ ∃ path ∈ paths,
        fileDocuments? language files request path = none := by
  rw [inputDocuments?, bind_toOption_eq_none_iff]
  simp only [gather?_eq_none_iff]

/-- **There are no input documents** exactly when something fails on the way to one of them. -/
theorem allInputsOf_eq_error_iff :
    (∃ failure, allInputsOf language files request = .error failure) ↔
      InputFails language files request := by
  rw [← toOption_eq_none_iff, toOption_allInputsOf, gather?_eq_none_iff]
  constructor
  · rintro ⟨input, listed, fails⟩
    -- the failure is followed down from the input to a file, and from there to a source
    rcases inputDocuments?_eq_none_iff.mp fails with
      ⟨problem, unresolved⟩ | ⟨paths, names, path, held, fails⟩
    · exact .unresolved listed unresolved
    have named : NamesFile files request path := ⟨input, listed, paths, names, held⟩
    rcases fileDocuments?_eq_none_iff.mp fails with
      ⟨problem, unread⟩ | ⟨text, reads, source, within, fails⟩
    · exact .unread named unread
    have holds : HoldsSource files request source := ⟨path, text, named, reads, within⟩
    rcases sourceDocuments?_eq_none_iff.mp fails with
      ⟨problem, unparsed⟩ | ⟨json, parses, ⟨pointer, wanted, unmatched⟩ | ⟨part, taken, filter,
        wanted, refused⟩⟩
    · exact .unparsed holds unparsed
    · exact .unmatched holds parses wanted unmatched
    · exact .refused holds parses taken wanted refused
  · -- a failing file makes its input fail, and a failing source its file
    have ofFile : ∀ {path}, NamesFile files request path →
        fileDocuments? language files request path = none →
          ∃ input ∈ request.inputs, inputDocuments? language files request input = none := by
      rintro path ⟨input, listed, paths, names, held⟩ fails
      have unread := inputDocuments?_eq_none_iff.mpr (.inr ⟨paths, names, path, held, fails⟩)
      exact ⟨input, listed, unread⟩
    have ofSource : ∀ {source}, HoldsSource files request source →
        sourceDocuments? language request source = none →
          ∃ input ∈ request.inputs, inputDocuments? language files request input = none := by
      rintro source ⟨path, text, named, reads, within⟩ fails
      have unread := fileDocuments?_eq_none_iff.mpr (.inr ⟨text, reads, source, within, fails⟩)
      exact ofFile named unread
    intro fails
    cases fails with
    | unresolved listed fails =>
        exact ⟨_, listed, inputDocuments?_eq_none_iff.mpr (.inl ⟨_, fails⟩)⟩
    | unread named fails => exact ofFile named (fileDocuments?_eq_none_iff.mpr (.inl ⟨_, fails⟩))
    | unparsed held fails =>
        exact ofSource held (sourceDocuments?_eq_none_iff.mpr (.inl ⟨_, fails⟩))
    | unmatched held parses wanted fails =>
        exact ofSource held (sourceDocuments?_eq_none_iff.mpr
          (.inr ⟨_, parses, .inl ⟨_, wanted, fails⟩⟩))
    | refused held parses taken wanted fails =>
        exact ofSource held (sourceDocuments?_eq_none_iff.mpr
          (.inr ⟨_, parses, .inr ⟨_, taken, _, wanted, fails⟩⟩))

end WireSchema.CommandLine

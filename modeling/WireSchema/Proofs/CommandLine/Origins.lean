import WireSchema.Proofs.CommandLine.Transcription
import WireSchema.Proofs.Decimal

/-! # Where documents come from

Where files hold a document per line, a document is named by the path of its file and by how many
documents stand on the lines up to its own, so that lines which hold none are not counted; the
message about a line that cannot be parsed counts all lines. The two numbers are the same exactly
when every line before holds a document (`origin_of_line`). -/

namespace WireSchema.CommandLine

variable {language : FilterLanguage} {files : FileSystem} {request : Transcription}
  {schema : Schema} {direction : Direction} {documents : List InputDocument}

/-! ## (1) Lines that hold documents -/

/-- Whether a line is not blank. -/
def isWritten (line : List Char) : Bool := !line.all Text.isBlank

/-- **A line of a text holds a document**: it is the line at a position, counted from zero, and is
not blank. -/
def HoldsDocument (text : String) (position : Nat) (line : List Char) : Prop :=
  (lines text.toList)[position]? = some line ∧ isWritten line = true

/-- How many of the lines before a position hold documents. -/
def documentsBefore (text : String) (position : Nat) : Nat :=
  ((lines text.toList).take position).countP isWritten

/-- What is kept of a list stands behind as many as are kept before it. -/
theorem getElem?_filter_eq_some_iff {α : Type} {keeps : α → Bool} {things : List α} {index : Nat}
    {thing : α} :
    (things.filter keeps)[index]? = some thing ↔
      ∃ position, (things[position]? = some thing ∧ keeps thing = true) ∧
        index = (things.take position).countP keeps := by
  induction things generalizing index with
  | nil => simp
  | cons first rest induction =>
      cases kept : keeps first with
      | false =>
          rw [List.filter_cons_of_neg (by simp [kept]), induction]
          constructor
          · rintro ⟨position, found, rfl⟩
            exact ⟨position + 1, found, by simp [kept]⟩
          · -- a first thing that is not kept counts nothing
            rintro ⟨_ | position, ⟨found, keeps⟩, rfl⟩
            · cases found
              exact absurd (kept.symm.trans keeps) Bool.false_ne_true
            · exact ⟨position, ⟨found, keeps⟩, by simp [kept]⟩
      | true =>
          rw [List.filter_cons_of_pos kept]
          cases index with
          | zero =>
              constructor
              · rintro ⟨⟩
                exact ⟨0, ⟨rfl, kept⟩, rfl⟩
              · -- the first thing that is kept has none before it
                rintro ⟨_ | position, ⟨found, keeps⟩, none⟩
                · exact found
                · simp [kept] at none
          | succ index =>
              rw [List.getElem?_cons_succ, induction]
              constructor
              · rintro ⟨position, found, rfl⟩
                exact ⟨position + 1, found, by simp [kept]⟩
              · rintro ⟨_ | position, ⟨found, keeps⟩, counted⟩
                · simp at counted
                · exact ⟨position, ⟨found, keeps⟩, by simpa [kept] using counted⟩

/-- **The sources in a file of lines** are the lines that hold documents, each with the number of
its document. -/
theorem mem_sources_iff {path text origin source : String} :
    (origin, source) ∈ sources true path text ↔
      ∃ position line, HoldsDocument text position line ∧ source = String.ofList line ∧
        origin = s!"{path}:{documentsBefore text position + 1}" := by
  have texts : ∀ index : Nat, (documentTexts true text)[index]? = some source ↔
      ∃ line, ((lines text.toList).filter isWritten)[index]? = some line ∧
        source = String.ofList line := by
    intro index
    rw [documentTexts, if_pos rfl, List.getElem?_map, Option.map_eq_some_iff]
    exact exists_congr fun line => and_congr_right fun _ => eq_comm
  simp only [sources, List.mem_map, Prod.exists, List.mem_zipIdx_iff_getElem?, Prod.mk.injEq,
    sourceName, if_true]
  constructor
  · rintro ⟨_, index, found, rfl, rfl⟩
    obtain ⟨line, kept, rfl⟩ := (texts index).mp found
    obtain ⟨position, holds, rfl⟩ := getElem?_filter_eq_some_iff.mp kept
    exact ⟨position, line, holds, rfl, rfl⟩
  · rintro ⟨position, line, holds, rfl, rfl⟩
    refine ⟨_, documentsBefore text position, ?_, rfl, rfl⟩
    exact (texts _).mpr ⟨line, getElem?_filter_eq_some_iff.mpr ⟨position, holds, rfl⟩, rfl⟩

/-! ## (2) Numbers -/

/-- Behind a line that holds a document, one document more has been counted. -/
theorem documentsBefore_succ {text : String} {position : Nat} {line : List Char}
    (holds : HoldsDocument text position line) :
    documentsBefore text (position + 1) = documentsBefore text position + 1 := by
  rw [documentsBefore, documentsBefore, List.take_add_one, holds.1, List.countP_append]
  simp [holds.2]

/-- The number of documents counted does not fall from one line to a later one. -/
theorem documentsBefore_mono (text : String) {position later : Nat} (before : position ≤ later) :
    documentsBefore text position ≤ documentsBefore text later :=
  (List.take_sublist_take_left before).countP_le

/-- Documents are counted no further than lines. -/
theorem documentsBefore_le (text : String) (position : Nat) :
    documentsBefore text position ≤ position :=
  Nat.le_trans List.countP_le_length (List.length_take_le _ _)

/-- **A document is as far down as its line** exactly when every line before holds a document. -/
theorem documentsBefore_eq_iff {text : String} {position : Nat}
    (within : position ≤ (lines text.toList).length) :
    documentsBefore text position = position ↔
      ∀ earlier < position, ∃ line, HoldsDocument text earlier line := by
  have length : ((lines text.toList).take position).length = position := by simp [within]
  have counts : documentsBefore text position = position ↔
      ∀ line ∈ (lines text.toList).take position, isWritten line = true := by
    rw [← List.countP_eq_length, length, documentsBefore]
  rw [counts]
  constructor
  · intro each earlier before
    have bound : earlier < ((lines text.toList).take position).length := by omega
    have found := List.getElem?_eq_getElem bound
    rw [List.getElem?_take_of_lt before] at found
    exact ⟨_, found, each _ (List.getElem_mem bound)⟩
  · intro each line held
    obtain ⟨earlier, found⟩ := List.getElem?_of_mem held
    rw [List.getElem?_take] at found
    obtain ⟨before, found⟩ := Option.ite_none_right_eq_some.mp found
    obtain ⟨same, holds⟩ := each earlier before
    cases holds.1.symm.trans found
    exact holds.2

/-- Different lines hold documents of different numbers. -/
theorem documentsBefore_injective {text : String} {position other : Nat}
    {line otherLine : List Char}
    (holds : HoldsDocument text position line) (otherHolds : HoldsDocument text other otherLine)
    (same : documentsBefore text position = documentsBefore text other) : position = other := by
  -- the document on the earlier one of two lines counts before the later line
  rcases Nat.lt_trichotomy position other with before | same | behind
  · have counted := documentsBefore_mono text (show position + 1 ≤ other by omega)
    rw [documentsBefore_succ holds] at counted
    omega
  · exact same
  · have counted := documentsBefore_mono text (show other + 1 ≤ position by omega)
    rw [documentsBefore_succ otherHolds] at counted
    omega

/-- A path and a number that are joined by a colon are found in what is made of them. -/
theorem eq_of_joined_eq {path other : String} {number otherNumber : Nat}
    (same : s!"{path}:{number}" = s!"{other}:{otherNumber}") :
    path = other ∧ number = otherNumber := by
  have joined : ∀ (path : String) (number : Nat),
      (s!"{path}:{number}").toList = path.toList ++ ':' :: Decimal.digits number := by
    intro path number
    simp [toString, Nat.repr, Decimal.digits]
  -- numbers are written in digits, so that the last colon is the one between
  have behindColon : ∀ (path : String) (number : Nat),
      (path.toList ++ ':' :: Decimal.digits number).reverse.takeWhile (· != ':') =
        (Decimal.digits number).reverse := by
    intro path number
    have free : ∀ c ∈ (Decimal.digits number).reverse, (c != ':') = true := by
      intro c held
      rw [bne_iff_ne]
      rintro rfl
      exact absurd (Decimal.isDigit_of_mem_digits (List.mem_reverse.mp held)) (by decide)
    rw [List.reverse_append, List.reverse_cons, List.append_assoc,
      List.takeWhile_append_of_pos free]
    simp
  have texts := congrArg String.toList same
  rw [joined, joined] at texts
  have numbers : (Decimal.digits number).reverse = (Decimal.digits otherNumber).reverse := by
    rw [← behindColon path number, texts, behindColon]
  have digits := List.reverse_injective numbers
  rw [digits] at texts
  refine ⟨String.toList_injective (List.append_cancel_right texts), ?_⟩
  rw [← Decimal.value_digits number, digits, Decimal.value_digits]

/-! ## (3) Messages -/

/-- **The failures** of documents, in order, each with the origin of its document. -/
def failures (schema : Schema) (direction : Direction) (documents : List InputDocument) :
    List (String × TranscodingError) :=
  documents.filterMap fun document =>
    match schema.transcode direction document.value with
    | .error error => some (document.origin, error)
    | .ok _ => none

/-- The second half of the sorted results lists the failures. -/
theorem snd_sortOut (schema : Schema) (direction : Direction) (documents : List InputDocument) :
    (sortOut (documents.zip (results schema direction documents))).2 =
      failures schema direction documents := by
  induction documents with
  | nil => rfl
  | cons document rest induction =>
      rw [failures, List.filterMap_cons, ← failures, ← induction]
      rw [results, List.map_cons, List.zip_cons_cons, sortOut, ← results]
      cases schema.transcode direction document.value <;> rfl

/-- **The first failure is reported** where it ends the run, under the origin of its document. -/
theorem transcodeAll_reports_first (stops : request.stopsAtFailure = true)
    {first : String × TranscodingError}
    (fails : first ∈ (failures schema request.direction documents).head?) :
    (transcodeAll files request schema documents).notices = notice first.1 first.2 ∧
      (transcodeAll files request schema documents).failure =
        some s!"stopped at first failure ({first.1})" := by
  obtain ⟨others, split⟩ := List.head?_eq_some_iff.mp fails
  have sorted := snd_sortOut schema request.direction documents
  rw [split] at sorted
  have concluded : transcodeAll files request schema documents =
      { Outcome.failed s!"stopped at first failure ({first.1})" with
        notices := notice first.1 first.2 } := by
    simp only [transcodeAll, conclude, sorted, stops]
  rw [concluded]
  exact ⟨rfl, rfl⟩

/-- **All failures are reported** where they do not end the run, each under the origin of its
document. -/
theorem transcodeAll_reports_all (goesOn : request.stopsAtFailure = false) :
    (transcodeAll files request schema documents).notices =
      String.join ((failures schema request.direction documents).map fun failure =>
        notice failure.1 failure.2) := by
  have sorted := snd_sortOut schema request.direction documents
  simp only [transcodeAll, conclude, sorted, goesOn]
  cases failures schema request.direction documents <;> rfl

/-- **A line is the first that cannot be parsed** among lines: it holds a document, and so does no
line before it that cannot be parsed. -/
def IsFirstUnparsed (lines : List (List Char)) (position : Nat) (problem : Json.SyntaxError) :
    Prop :=
  (∃ line, lines[position]? = some line ∧ isWritten line = true ∧
    Json.parse (String.ofList line) = .error problem) ∧
  ∀ earlier < position, ∀ line, lines[earlier]? = some line → isWritten line = true →
    ∃ json, Json.parse (String.ofList line) = .ok json

/-- A line at the front that is blank or can be parsed does not change which line cannot. -/
theorem isFirstUnparsed_cons_iff {line : List Char} {rest : List (List Char)} {position : Nat}
    {problem : Json.SyntaxError}
    (passes : isWritten line = true → ∃ json, Json.parse (String.ofList line) = .ok json) :
    IsFirstUnparsed (line :: rest) position problem ↔
      ∃ later, position = later + 1 ∧ IsFirstUnparsed rest later problem := by
  constructor
  · rintro ⟨⟨other, found, written, fails⟩, parse⟩
    cases position with
    | zero =>
        cases found
        obtain ⟨json, parses⟩ := passes written
        cases parses.symm.trans fails
    | succ later =>
        refine ⟨later, rfl, ⟨other, found, written, fails⟩, fun earlier before line held => ?_⟩
        exact parse (earlier + 1) (by omega) line held
  · rintro ⟨later, rfl, ⟨other, found, written, fails⟩, parse⟩
    refine ⟨⟨other, found, written, fails⟩, ?_⟩
    rintro (_ | earlier) before line held
    · cases held
      exact passes
    · exact parse earlier (by omega) line held

/-- **The message about a line that cannot be parsed** tells its number among all lines. -/
theorem lineDocuments_eq_error_iff {path : String} {start : Nat} {lines : List (List Char)}
    {failure : String} :
    lineDocuments path start lines = .error failure ↔
      ∃ position problem, IsFirstUnparsed lines position problem ∧
        failure =
          s!"failed to parse NDJSON line {start + position} ({path}): {problem.message}" := by
  induction lines generalizing start with
  | nil =>
      rw [lineDocuments]
      constructor
      · rintro ⟨⟩
      · rintro ⟨_, _, ⟨⟨_, found, _⟩, _⟩, _⟩
        cases found
  | cons line rest induction =>
      -- a line that passes shifts the count of the lines behind it
      have shift : (isWritten line = true → ∃ json, Json.parse (String.ofList line) = .ok json) →
          ((∃ position problem, IsFirstUnparsed rest position problem ∧ failure =
            s!"failed to parse NDJSON line {start + 1 + position} ({path}): {problem.message}") ↔
          ∃ position problem, IsFirstUnparsed (line :: rest) position problem ∧ failure =
            s!"failed to parse NDJSON line {start + position} ({path}): {problem.message}") := by
        intro passes
        simp only [isFirstUnparsed_cons_iff passes]
        constructor
        · rintro ⟨position, problem, first, rfl⟩
          exact ⟨position + 1, problem, ⟨position, rfl, first⟩,
            by rw [Nat.add_right_comm, Nat.add_assoc]⟩
        · rintro ⟨_, problem, ⟨position, rfl, first⟩, rfl⟩
          exact ⟨position, problem, first, by rw [Nat.add_right_comm, Nat.add_assoc]⟩
      rw [lineDocuments]
      by_cases blank : line.all Text.isBlank = true
      · rw [if_pos blank, induction]
        exact shift (by simp [isWritten, blank])
      · have written : isWritten line = true := by simpa [isWritten] using blank
        rw [if_neg blank, bind_eq_error_iff, mapError_eq_error_iff]
        cases parses : Json.parse (String.ofList line) with
        | ok json =>
            rw [← shift fun _ => ⟨json, parses⟩, ← induction]
            constructor
            · rintro (⟨_, ⟨⟩, _⟩ | ⟨document, _, later⟩)
              rcases bind_eq_error_iff.mp later with fails | ⟨_, _, never⟩
              · exact fails
              · cases never
            · intro fails
              exact Or.inr ⟨json, rfl, bind_eq_error_iff.mpr (Or.inl fails)⟩
        | error problem =>
            constructor
            · rintro (⟨_, ⟨⟩, rfl⟩ | ⟨_, ⟨⟩, _⟩)
              exact ⟨0, problem, ⟨⟨line, rfl, written, parses⟩, by omega⟩, rfl⟩
            · rintro ⟨_ | position, other, ⟨⟨_, found, _, fails⟩, parse⟩, rfl⟩
              · cases found
                cases parses.symm.trans fails
                exact Or.inl ⟨problem, rfl, rfl⟩
              · obtain ⟨json, never⟩ := parse 0 (by omega) line rfl written
                cases parses.symm.trans never

/-! ## (4) Runs -/

/-- A document that is gathered comes from a source of a file that an input names. -/
theorem exists_source_of_mem
    (gathered : Gathered (InputGives language files request) request.inputs documents)
    {document : InputDocument} (held : document ∈ documents) :
    ∃ path text, NamesFile files request path ∧ files.read path = .ok text ∧
      ∃ source ∈ sources request.isLineByLine path text, document.origin = source.1 ∧
        ∃ here, SourceGives language request source here ∧ document ∈ here := by
  -- gathered from inputs, from the files of one input and from the sources of one file
  obtain ⟨input, listed, _, ⟨paths, names, gatheredFiles⟩, held⟩ :=
    exists_gives_of_mem gathered held
  obtain ⟨path, named, _, ⟨text, reads, gatheredSources⟩, held⟩ :=
    exists_gives_of_mem gatheredFiles held
  obtain ⟨source, within, here, gives, held⟩ := exists_gives_of_mem gatheredSources held
  refine ⟨path, text, ⟨input, listed, paths, names, named⟩, reads, source, within, ?_, here, gives,
    held⟩
  obtain ⟨_, _, outputs, _, _, _, rfl⟩ := gives
  obtain ⟨_, _, rfl⟩ := List.mem_map.mp held
  rfl

/-- **Where documents come from**, line by line, whatever a filter drops or adds. A document is read
from a line of a file that holds one, and its origin is the path of the file with the number of the
document among the documents of the file; failures are reported under these origins, and so is the
failure that ends a run. This number is that of the line exactly when each line before holds a
document. It tells the lines of all files apart. A line that cannot be parsed is told by its number
among all lines. -/
theorem origin_of_line (language : FilterLanguage) (files : FileSystem) (request : Transcription)
    (lineByLine : request.isLineByLine = true) :
    (∀ documents, Gathered (InputGives language files request) request.inputs documents →
      ∀ document ∈ documents, ∃ path text position line,
        NamesFile files request path ∧ files.read path = .ok text ∧
        HoldsDocument text position line ∧
        document.origin = s!"{path}:{documentsBefore text position + 1}" ∧
        ∃ here, SourceGives language request (document.origin, String.ofList line) here ∧
          document ∈ here) ∧
    (∀ schema documents, SchemaLoads files request.schema schema →
      Gathered (InputGives language files request) request.inputs documents →
      let outcome := runWith language files (.transcode request)
      let failed := failures schema request.direction documents
      (request.stopsAtFailure = true → ∀ first ∈ failed.head?,
        outcome.notices = notice first.1 first.2 ∧
          outcome.failure = some s!"stopped at first failure ({first.1})") ∧
      (request.stopsAtFailure = false → outcome.notices =
        String.join (failed.map fun failure => notice failure.1 failure.2))) ∧
    (∀ text position line, HoldsDocument text position line →
      documentsBefore text position ≤ position ∧
      (documentsBefore text position = position ↔
        ∀ earlier < position, ∃ other, HoldsDocument text earlier other)) ∧
    (∀ path text position line otherPath otherText otherPosition otherLine,
      files.read path = .ok text → HoldsDocument text position line →
      files.read otherPath = .ok otherText → HoldsDocument otherText otherPosition otherLine →
      s!"{path}:{documentsBefore text position + 1}" =
          s!"{otherPath}:{documentsBefore otherText otherPosition + 1}" →
        path = otherPath ∧ position = otherPosition) ∧
    ∀ path text failure, documentsOf request path text = .error failure ↔
      ∃ position problem, IsFirstUnparsed (lines text.toList) position problem ∧
        failure = s!"failed to parse NDJSON line {position + 1} ({path}): {problem.message}" := by
  refine ⟨fun documents gathered document held => ?_, fun schema documents loads gathered => ?_,
    fun text position line holds => ⟨documentsBefore_le text position, ?_⟩, ?_,
    fun path text failure => ?_⟩
  · obtain ⟨path, text, named, reads, ⟨origin, source⟩, within, same, here, gives, held⟩ :=
      exists_source_of_mem gathered held
    rw [lineByLine] at within
    obtain ⟨position, line, holds, rfl, numbered⟩ := mem_sources_iff.mp within
    cases same
    exact ⟨path, text, position, line, named, reads, holds, numbered, here, gives, held⟩
  · intro outcome failed
    have same : outcome = transcodeAll files request schema documents := run_of_loads loads gathered
    rw [same]
    exact ⟨fun stops first fails => transcodeAll_reports_first stops fails,
      transcodeAll_reports_all⟩
  · exact documentsBefore_eq_iff (Nat.le_of_lt (List.getElem?_eq_some_iff.mp holds.1).1)
  · intro path text position line otherPath otherText otherPosition otherLine reads holds readsOther
      otherHolds same
    obtain ⟨rfl, numbers⟩ := eq_of_joined_eq same
    -- one path leads to one text
    cases reads.symm.trans readsOther
    exact ⟨rfl, documentsBefore_injective holds otherHolds (Nat.succ.inj numbers)⟩
  · rw [documentsOf, if_pos lineByLine, bind_eq_error_iff]
    simp only [lineDocuments_eq_error_iff, Nat.add_comm 1]
    refine or_iff_left ?_
    rintro ⟨_, _, ⟨⟩⟩

/-! ## (5) A line below a blank one -/

/-- The request to decode the documents on the lines of a file, with a filter if one is given. -/
def decodingLines (filter : Option String) : Transcription :=
  ⟨.decode, "schema", ["in"], true, none, filter, none, false⟩

/-- The document below null, which a filter drops, and a blank line. -/
def lowerDocument : InputDocument := ⟨"in:2", .number (.integer 1)⟩

/-- The filter keeps the document on the third line alone. -/
theorem gathered_lowerDocument :
    Gathered (InputGives .droppingNull (stampFiles "\nnull\n1\n")
      (decodingLines (some "select(. != null)"))) ["in"] [lowerDocument] := by
  refine gathered_stampFiles rfl ?_
  have onLines : sources true "in" "\nnull\n1\n" = [("in:1", "null"), ("in:2", "1")] := rfl
  rw [onLines]
  exact Gathered.cons (sourceGives_null rfl rfl "in:1")
    (gathered_singleton (sourceGives_one rfl rfl "in:2"))

/-- The document on the third line is reported as the second one: it stands below a blank line, and
below one whose document the filter drops. -/
theorem origin_of_line_dropped :
    (decodingLines (some "select(. != null)")).isLineByLine = true ∧
      (runWith .droppingNull (stampFiles "\nnull\n1\n")
        (.transcode (decodingLines (some "select(. != null)")))).notices =
        "✗ in:2: expected string, found number at /\n" := by
  have reported := ((origin_of_line .droppingNull (stampFiles "\nnull\n1\n")
    (decodingLines (some "select(. != null)")) rfl).2.1 .timestampText [lowerDocument]
    (schemaLoads_stampFiles _) gathered_lowerDocument).2 rfl
  have failed : failures .timestampText .decode [lowerDocument] =
      [("in:2", ⟨"", .wrongKind "string" "number"⟩)] := rfl
  refine ⟨rfl, reported.trans ?_⟩
  rw [show (decodingLines (some "select(. != null)")).direction = .decode from rfl, failed]
  rfl

/-- The document on the second line, below a blank one. -/
def skippedDocument : InputDocument := ⟨"in:1", .number (.integer 1)⟩

/-- The document is read without a filter of any language. -/
theorem gathered_skippedDocument :
    Gathered (InputGives .droppingNull (stampFiles "\n1\n") (decodingLines none)) ["in"]
      [skippedDocument] := by
  refine gathered_stampFiles rfl ?_
  have onLine : sources true "in" "\n1\n" = [("in:1", "1")] := rfl
  rw [onLine]
  exact gathered_singleton ⟨.number (.integer 1), _, _, rfl, rfl, rfl, rfl⟩

/-- **The document on the second line** is reported as that of the first line. What cannot be parsed
on the same line is told to be on the second. -/
theorem exists_misnumbered_line :
    (stampFiles "\n1\n").read "in" = .ok "\n1\n" ∧ lines "\n1\n".toList = [[], ['1']] ∧
      HoldsDocument "\n1\n" 1 ['1'] ∧
      allInputsOf .droppingNull (stampFiles "\n1\n") (decodingLines none) = .ok [skippedDocument] ∧
      skippedDocument.origin ≠ s!"in:{1 + 1}" ∧
      documentsOf (decodingLines none) "in" "\n?\n" =
        .error s!"failed to parse NDJSON line {1 + 1} (in): expected value" := by
  refine ⟨rfl, by decide, ⟨rfl, by decide⟩, allInputsOf_eq_ok_iff.mpr gathered_skippedDocument,
    by decide, rfl⟩

end WireSchema.CommandLine

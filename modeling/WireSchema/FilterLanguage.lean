import WireSchema.Json.Reader

/-! # Filter languages

A filter takes a document and gives any number of outputs in order. Which texts are filters and what
they give is not settled here: a **filter language** is anything that loads texts as filters. What
is settled is how a filter of any language is applied. Its outputs come as texts, each of which has
to spell a document, and the first output that is missing or spells none ends the application. -/

namespace WireSchema

/-- Why a text is rejected as a filter. -/
inductive FilterRejection where
  /-- The text is malformed; each of the problems is told. -/
  | malformed (problems : List String)
  /-- The text uses names that are not defined; each comes with what it should be. -/
  | undefined (names : List (String × String))
  deriving DecidableEq

/-- What the kind of a rejection is called. -/
def FilterRejection.kind : FilterRejection → String
  | .malformed _ => "parse"
  | .undefined _ => "undefined"

/-- The problems of a rejected text, one by one. -/
def FilterRejection.problems : FilterRejection → List String
  | .malformed problems => problems
  | .undefined names => names.map fun (name, expected) => s!"`{name}` ({expected})"

/-- **A filter language**. -/
structure FilterLanguage where
  /-- The filter that a text spells, unless it is rejected. For a document the filter gives its
  outputs in order, as texts; an output that cannot be computed is told by its problem. -/
  load : String → Except FilterRejection (Json → List (Except String String))

namespace FilterLanguage

/-- Why a filter gives no documents. -/
inductive Failure where
  /-- Its text is rejected. -/
  | rejected (rejection : FilterRejection)
  /-- An output cannot be computed. -/
  | failed (problem : String)
  /-- An output spells no document. -/
  | unreadable (problem : Json.SyntaxError)
  deriving DecidableEq

/-- What a failure says about the filter of the given text. -/
def Failure.message (filter : String) : Failure → String
  | .rejected rejection =>
      s!"jq filter `{filter}` rejected ({rejection.problems.length} {rejection.kind} error(s)): " ++
        "; ".intercalate rejection.problems
  | .failed problem => s!"jq filter `{filter}` failed: {problem}"
  | .unreadable problem =>
      s!"jq filter `{filter}` produced non-JSON output: {problem.message}"

/-- The document that an output spells. -/
def readOutput : Except String String → Except Failure Json
  | .error problem => .error (.failed problem)
  | .ok text => (Json.parse text).mapError .unreadable

/-- **Apply a filter** to a document: the documents that its outputs spell, in order. -/
def apply (language : FilterLanguage) (filter : String) (document : Json) :
    Except Failure (List Json) :=
  match language.load filter with
  | .error rejection => .error (.rejected rejection)
  | .ok outputs => (outputs document).mapM readOutput

end FilterLanguage

end WireSchema

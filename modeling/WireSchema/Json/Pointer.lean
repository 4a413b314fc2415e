import WireSchema.Decimal
import WireSchema.Json.Basic
import WireSchema.Splitting

/-! # JSON pointers

A pointer is the text of a list of **segments**, each written behind a slash with `~` as `~0` and
`/` as `~1`. Resolving it follows object names and array positions from the root down; the empty
pointer is the root. -/

namespace WireSchema.Pointer

/-! ## (1) Writing -/

/-- How one character of a segment is written. -/
def escapeChar (c : Char) : List Char :=
  if c = '~' then ['~', '0'] else if c = '/' then ['~', '1'] else [c]

/-- The text of a segment. -/
def escape (segment : String) : List Char := segment.toList.flatMap escapeChar

/-- The pointer to what `segment` names inside the place that `path` points to. -/
def child (path segment : String) : String := path ++ String.ofList ('/' :: escape segment)

/-- The segment of an array position. -/
def position (index : Nat) : String := String.ofList (Decimal.digits index)

/-! ## (2) Reading -/

/-- The segment that a text stands for. -/
def unescape : List Char → List Char
  | '~' :: '1' :: rest => '/' :: unescape rest
  | '~' :: '0' :: rest => '~' :: unescape rest
  | c :: rest => c :: unescape rest
  | [] => []

/-- The segments of a pointer; a text that neither is empty nor starts with a slash is none. -/
def segments? (path : String) : Option (List String) :=
  match path.toList with
  | [] => some []
  | '/' :: rest => some ((splitWhere (· == '/') rest).map fun text => String.ofList (unescape text))
  | _ => none

/-- The array position that a segment names: digits without a leading zero. -/
def index? (segment : String) : Option Nat :=
  match segment.toList with
  | [] => none
  | ['0'] => some 0
  | '0' :: _ => none
  | digits => if digits.all Char.isDigit then some (Decimal.value digits) else none

end WireSchema.Pointer

namespace WireSchema

namespace Json

/-- What a list of segments leads to inside a document. -/
def descend? : Json → List String → Option Json
  | document, [] => some document
  | .object members, segment :: rest => do
      let value ← Members.find? members segment
      descend? value rest
  | .array items, segment :: rest => do
      let index ← Pointer.index? segment
      let item ← items[index]?
      descend? item rest
  | _, _ :: _ => none

/-- What a pointer leads to inside a document. -/
def resolve? (document : Json) (path : String) : Option Json := do
  let segments ← Pointer.segments? path
  descend? document segments

end Json

end WireSchema

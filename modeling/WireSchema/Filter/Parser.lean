import WireSchema.Filter.Basic
import WireSchema.Filter.Token
import WireSchema.FilterLanguage
import WireSchema.Splitting

/-! # Reading filters

Brackets are closed innermost first, and what stands between two brackets is read once they close.
So every text between brackets is a list of **items**, tokens and closed groups, without any
nesting: it is split at its separators, `|` being weaker than `,`, down to **terms**, which are an
atom followed by steps. A point with a name or a quoted text is a step, and so is a square group,
but not a point with a square group: only the point that is itself an atom may stand before one. -/

namespace WireSchema.Filter

/-- A part of a text whose inner brackets are closed. -/
inductive Item where
  /-- A token that is no bracket. -/
  | token (token : Token)
  /-- A round group, with the filters that semicolons separate in it. -/
  | round (filters : List Filter)
  /-- A square group, with the filter in it if there is one. -/
  | square (inner : Option Filter)
  /-- A curly group, which is an object. -/
  | curly (object : Filter)

namespace Item

/-- Whether an item is the given token. -/
def isToken (mark : Token) : Item → Bool
  | .token found => found == mark
  | _ => false

/-- The parts of a text between the given marks. -/
def split (mark : Token) (items : List Item) : List (List Item) := splitWhere (isToken mark) items

/-! ## (1) Terms -/

/-- The filter that a name without arguments stands for. -/
def ofName (name : String) : Filter :=
  match name with
  | "null" => .constant .null
  | "true" => .constant (.bool true)
  | "false" => .constant (.bool false)
  | "empty" => .empty
  | "length" => .length
  | _ => .undefined name

/-- The step that the inside of a square group makes. -/
def stepOfGroup : Option Filter → FilterStep
  | none => .each
  | some filter => .key filter

/-- The step to the member of a name. -/
def stepOfName (name : String) : FilterStep := .key (.constant (.string name))

/-- The steps that a list of items makes, if it makes steps. -/
def steps? : List Item → Option (List FilterStep)
  | [] => some []
  | .token (.field name) :: rest => (steps? rest).map (stepOfName name :: ·)
  | .token .dot :: .token (.text name) :: rest => (steps? rest).map (stepOfName name :: ·)
  | .square inner :: rest => (steps? rest).map (stepOfGroup inner :: ·)
  | _ => none

/-- The filter that a number literal stands for. Only an integer of 63 bits may have zeros in front;
another literal that has them, or that is too large, is nothing that an output can hold. -/
def ofLiteral (literal : Number.Literal) : Filter :=
  let written : Filter :=
    match literal.whole, literal.number? with
    | '0' :: _ :: _, _ | _, none => .failure
    | _, some value => .constant (.number value)
  match literal.integer? with
  | some value => if value < 2 ^ 63 then .constant (.number (.integer value)) else written
  | none => written

/-- A filter with steps behind it. -/
def extend (base : Filter) : List FilterStep → Filter
  | [] => base
  | steps => .path base steps

/-- The term that a list of items makes. A path without an atom starts at the input. -/
def term? : List Item → Option Filter
  | .token .dot :: .token (.text name) :: rest =>
      (steps? rest).map fun steps => .path .identity (stepOfName name :: steps)
  | .token .dot :: rest => (steps? rest).map (extend .identity)
  | .token (.field name) :: rest =>
      (steps? rest).map fun steps => .path .identity (stepOfName name :: steps)
  | .token (.name name) :: .round _ :: rest => (steps? rest).map (extend (.undefined name))
  | .token (.name name) :: rest => (steps? rest).map (extend (ofName name))
  | .token (.reference name) :: rest => (steps? rest).map (extend (.undefined name))
  | .token (.number literal) :: rest => (steps? rest).map (extend (ofLiteral literal))
  | .token .minus :: rest => (term? rest).map .opposite
  | .token (.text value) :: rest => (steps? rest).map (extend (.constant (.string value)))
  | .round [inner] :: rest => (steps? rest).map (extend inner)
  | .square none :: rest => (steps? rest).map (extend (.constant (.array [])))
  | .square (some inner) :: rest => (steps? rest).map (extend (.collect inner))
  | .curly built :: rest => (steps? rest).map (extend built)
  | _ => none

/-! ## (2) Filters -/

/-- Filters joined from left to right. -/
def joined? (join : Filter → Filter → Filter) : List Filter → Option Filter
  | [] => none
  | [last] => some last
  | first :: rest => (joined? join rest).map (join first)

/-- The filter that terms between commas make. -/
def sum? (items : List Item) : Option Filter :=
  ((split .comma items).mapM term?).bind (joined? .both)

/-- The filter that a list of items makes. -/
def filter? (items : List Item) : Option Filter :=
  ((split .pipe items).mapM sum?).bind (joined? .pipe)

/-! ## (3) Groups -/

/-- The member of an object that a list of items makes: a name with a filter, or a name alone, which
is looked up in the input. -/
def member? : List Item → Option (Filter × Filter)
  | [.token (.name name)] | [.token (.text name)] =>
      some (.constant (.string name), .path .identity [stepOfName name])
  | [.token (.reference name)] => some (.constant (.string name), .undefined name)
  | .token (.reference name) :: .token .colon :: value =>
      (filter? value).map (.undefined name, ·)
  | .token (.name name) :: .token .colon :: value | .token (.text name) :: .token .colon :: value =>
      (filter? value).map (.constant (.string name), ·)
  | .round [name] :: .token .colon :: value => (filter? value).map (name, ·)
  | _ => none

/-- The parts of an object; a comma may stand behind the last one. -/
def memberParts (items : List Item) : List (List Item) :=
  let parts := split .comma items
  if parts.getLast?.any List.isEmpty then parts.dropLast else parts

/-- The group that the items between two brackets make. -/
def group? : Bracket → List Item → Option Item
  | .round, items => ((split .semicolon items).mapM filter?).map .round
  | .square, [] => some (.square none)
  | .square, items => (filter? items).map fun inner => .square (some inner)
  | .curly, [] => some (.curly (.object []))
  | .curly, items => ((memberParts items).mapM member?).map fun members => .curly (.object members)

/-- The items of a text: `items` holds those behind the innermost open bracket, and `outer` holds
the open brackets, innermost first, with the items before each; these lists of items start with the
last one. -/
def assemble? : List Token → List (Bracket × List Item) → List Item → Option (List Item)
  | [], [], items => some items.reverse
  | [], _ :: _, _ => none
  | .opening bracket :: rest, outer, items => assemble? rest ((bracket, items) :: outer) []
  | .closing bracket :: rest, (opened, before) :: outer, items =>
      if bracket = opened then do
        assemble? rest outer ((← group? bracket items.reverse) :: before)
      else none
  | .closing _ :: _, [], _ => none
  | other :: rest, outer, items => assemble? rest outer (.token other :: items)

end Item

/-! ## (4) The language -/

/-- The filter that a text spells, if it spells one. -/
def parse? (text : String) : Option Filter := do
  let tokens ← Token.scan text.toList
  Item.filter? (← Item.assemble? tokens [] [])

/-- An output as a language gives it: the text of its document. -/
def outputText : Output → Except String String
  | some document => .ok document.render
  | none => .error "it does not apply"

/-- **The language** of the filters that are read here. What it says about problems is its own. -/
def language : FilterLanguage where
  load text :=
    match parse? text with
    | none => .error (.malformed [text])
    | some filter =>
        match filter.undefined? with
        | some name => .error (.undefined [(name, "Filter")])
        | none => .ok fun document => (filter.outputs document).map outputText

/-- The kinds of failures, without what the language says about them. -/
inductive Failure where
  /-- The text is no filter. -/
  | malformed
  /-- The filter uses names that are not defined. -/
  | undefined (names : String)
  /-- The filter does not apply to the document, or an output is nested too deeply. -/
  | inapplicable
  deriving DecidableEq

/-- The kind of a failure. -/
def Failure.ofLanguage : FilterLanguage.Failure → Failure
  | .rejected (.malformed _) => .malformed
  | .rejected (.undefined names) => .undefined (", ".intercalate (names.map Prod.fst))
  | .failed _ | .unreadable _ => .inapplicable

/-- The outputs of the filter with the given text for a document. -/
def applyText (text : String) (document : Json) : Except Failure (List Json) :=
  (language.apply text document).mapError .ofLanguage

end WireSchema.Filter

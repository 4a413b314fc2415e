import WireSchema.Json.Printer
import WireSchema.Json.Reader

/-! # Filters

The part of a filter language that this library reads itself. A filter takes a document and gives
any number of outputs in order. Filters are chained, so that
each output of one is an input of the next, or stand side by side, so that the outputs of the first
come before those of the second. A **path** follows steps into each output of its base; the
positions and names that the steps ask for are computed from the input of the whole path.

An output that cannot be computed still counts as one. Where outputs are combined, as the names and
members of an object or the keys of a path are, it spoils every combination that it is part of, and
is gone when there are none. -/

namespace WireSchema

mutual

/-- **A filter**. -/
inductive Filter where
  /-- The input itself. -/
  | identity
  /-- A document, whatever the input is. -/
  | constant (value : Json)
  /-- An output that cannot be computed. -/
  | failure
  /-- No output. -/
  | empty
  /-- The size of the input. -/
  | length
  /-- A function or a variable that does not exist. -/
  | undefined (name : String)
  /-- The outputs of `second` for the outputs of `first`. -/
  | pipe (first second : Filter)
  /-- The outputs of `first`, then those of `second`. -/
  | both (first second : Filter)
  /-- The outputs with the opposite sign. -/
  | opposite (inner : Filter)
  /-- The array of all outputs. -/
  | collect (inner : Filter)
  /-- Objects with the given names and members, one for each choice among their outputs. -/
  | object (members : List (Filter × Filter))
  /-- What the steps lead to from the outputs of `base`. -/
  | path (base : Filter) (steps : List FilterStep)

/-- A step of a path. -/
inductive FilterStep where
  /-- To every item or member. -/
  | each
  /-- To what stands under an output of the filter. -/
  | key (filter : Filter)

end

namespace Filter

/-! ## (1) Outputs that cannot be computed -/

/-- **An output**: a document, or none if it cannot be computed. -/
abbrev Output : Type := Option Json

/-- What `next` gives for all that has been computed, in order; what cannot be computed stays. -/
def through {α β : Type} (next : α → List (Option β)) (computed : List (Option α)) :
    List (Option β) :=
  computed.flatMap fun
    | some value => next value
    | none => [none]

@[simp] theorem through_nil {α β : Type} (next : α → List (Option β)) : through next [] = [] := rfl

/-- An output is followed by what the next step gives for it. -/
@[simp] theorem through_some {α β : Type} (next : α → List (Option β)) (value : α)
    (rest : List (Option α)) :
    through next (some value :: rest) = next value ++ through next rest := by
  simp [through]

/-- A failing output stays, and the outputs behind it still go through the next step. -/
@[simp] theorem through_none {α β : Type} (next : α → List (Option β)) (rest : List (Option α)) :
    through next (none :: rest) = none :: through next rest := by
  simp [through]

/-! ## (2) Steps into documents -/

/-- A step whose position or name is known. -/
inductive Access where
  /-- To every item or member. -/
  | each
  /-- To the item at that position or the member of that name. -/
  | key (value : Json)

/-- The positions that can be asked for are the signed integers of 64 bits. -/
def isPosition (value : Int) : Bool := -(2 ^ 63) ≤ value && value < 2 ^ 63

/-- The item of an array at a position, counted from the end if it is negative; null outside. -/
def item (items : List Json) (position : Int) : Json :=
  let fromStart := if position < 0 then items.length + position else position
  if fromStart < 0 then .null else (items[fromStart.toNat]?).getD .null

/-- The documents that a step leads to; it leads nowhere in a document that has no such parts. -/
def access : Access → Json → List Output
  | .each, .array items => items.map some
  | .each, .object members => members.map fun member => some member.2
  | .key (.number (.integer position)), .array items =>
      if isPosition position then [some (item items position)] else [none]
  | .key (.string name), .object members => [some ((Members.find? members name).getD .null)]
  | _, _ => [none]

/-- The documents that steps lead to. -/
def follow : List Access → Json → List Output
  | [], document => [some document]
  | step :: steps, document => through (follow steps) (access step document)

/-! ## (3) Sizes and signs -/

/-- The size of a document: the number of its parts or characters, or the magnitude of a number.
Integers beyond the signed 64 bits count as doubles; truth values have no size. -/
def size : Json → Output
  | .null => some (.nat 0)
  | .bool _ => none
  | .number (.integer value) =>
      if value < 2 ^ 63 then some (.nat value.natAbs)
      else (Binary64.ofLiteral? false (Decimal.ofInt value) [] 0).map fun magnitude =>
        .number (.double magnitude)
  | .number (.double value) => some (.number (.double { value with isNegative := false }))
  | .string value => some (.nat value.length)
  | .array items => some (.nat items.length)
  | .object members => some (.nat members.length)

/-- The number with the opposite sign. Integers beyond the signed 64 bits count as doubles; nothing
but numbers has a sign. -/
def signChanged : Json → Output
  | .number (.integer value) =>
      if value < 2 ^ 63 then some (.number (.integer (-value)))
      else (Binary64.ofLiteral? true (Decimal.ofInt value) [] 0).map fun opposite =>
        .number (.double opposite)
  | .number (.double value) =>
      some (.number (.double { value with isNegative := !value.isNegative }))
  | _ => none

/-! ## (4) Outputs -/

/-- The members chosen so far with one more, if all of them could be computed and the name is a
text. -/
def withMember : Option (List (String × Json)) → Output → Output → Option (List (String × Json))
  | some chosen, some (.string name), some value => some (Members.insert chosen name value)
  | _, _, _ => none

mutual

/-- The outputs of a filter for an input. -/
def outputs : Filter → Json → List Output
  | .identity, input => [some input]
  | .constant value, _ => [some value]
  | .failure, _ => [none]
  | .empty, _ => []
  | .length, input => [size input]
  | .undefined _, _ => [none]
  | .pipe first second, input => through (outputs second) (outputs first input)
  | .both first second, input => outputs first input ++ outputs second input
  | .opposite inner, input => (outputs inner input).map (·.bind signChanged)
  | .collect inner, input => [((outputs inner input).mapM id).map .array]
  | .object members, input => (memberChoices members input (some [])).map (·.map .object)
  | .path base steps, input =>
      through (fun start => through (follow · start) (stepChoices steps input))
        (outputs base input)

/-- The members of an object behind those already chosen, for each choice among their outputs; the
choices for the first member vary slowest. -/
def memberChoices : List (Filter × Filter) → Json → Option (List (String × Json)) →
    List (Option (List (String × Json)))
  | [], _, chosen => [chosen]
  | (name, value) :: rest, input, chosen =>
      (outputs name input).flatMap fun name =>
        (outputs value input).flatMap fun value =>
          memberChoices rest input (withMember chosen name value)

/-- The steps of a path with their keys computed, for each choice among the outputs of the keys. -/
def stepChoices : List FilterStep → Json → List (Option (List Access))
  | [], _ => [some []]
  | .each :: rest, input => (stepChoices rest input).map fun steps => steps.map (.each :: ·)
  | .key filter :: rest, input =>
      (outputs filter input).flatMap fun key =>
        (stepChoices rest input).map fun steps => do return .key (← key) :: (← steps)

end

/-! ## (5) Names that are not defined -/

mutual

/-- The first name in a filter that is not defined. -/
def undefined? : Filter → Option String
  | .identity | .constant _ | .failure | .empty | .length => none
  | .undefined name => some name
  | .pipe first second | .both first second => undefined? first <|> undefined? second
  | .opposite inner | .collect inner => undefined? inner
  | .object members => undefinedMember? members
  | .path base steps => undefined? base <|> undefinedStep? steps

/-- The first name in the members of an object that is not defined. -/
def undefinedMember? : List (Filter × Filter) → Option String
  | [] => none
  | (name, value) :: rest => undefined? name <|> undefined? value <|> undefinedMember? rest

/-- The first name in the steps of a path that is not defined. -/
def undefinedStep? : List FilterStep → Option String
  | [] => none
  | .each :: rest => undefinedStep? rest
  | .key filter :: rest => undefined? filter <|> undefinedStep? rest

end

end Filter

end WireSchema

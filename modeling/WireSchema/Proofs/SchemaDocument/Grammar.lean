import WireSchema.Proofs.Json.Reading
import WireSchema.SchemaDocument.Basic

/-! # The grammar of schema documents

Which documents are **spelled** by a JSON document, in whose objects names may repeat. A schema is
an alternative: an object with one known member. What describes it is a record: an object with known
members, none of them repeated, in any order, or the array of these members in declaration order, of
which those at the end may be missing if they have defaults. -/

namespace WireSchema

open Members

namespace SchemaDocument

/-! ## (1) Alternatives and records -/

/-- An alternative with content: an object with its name as the only member. -/
def IsVariant (name : String) (content : Json → Prop) (json : Json) : Prop :=
  ∃ inner, json = .object [(name, inner)] ∧ content inner

/-- An alternative without content: its name, or an object that has `null` for its content. -/
def IsUnitVariant (name : String) (json : Json) : Prop :=
  json = .string name ∨ json = .object [(name, .null)]

/-- **A record** with its members by their names. -/
inductive IsRecord (names : List String) : Json → List (String × Json) → Prop
  /-- Members of known names, none of them repeated, in any order. -/
  | object {members : List (String × Json)} (distinct : (keys members).Nodup)
      (known : ∀ name ∈ keys members, name ∈ names) : IsRecord names (.object members) members
  /-- The members in declaration order; some at the end may be missing. -/
  | array {items : List Json} (fits : items.length ≤ names.length) :
      IsRecord names (.array items) (names.zip items)

/-- A member that has to be there. -/
def Holds (members : List (String × Json)) (name : String) (content : Json → Prop) : Prop :=
  ∃ value, find? members name = some value ∧ content value

/-- A member that may be missing, where it has its default. -/
def HoldsUnless (members : List (String × Json)) (name : String) (isDefault : Prop)
    (content : Json → Prop) : Prop :=
  match find? members name with
  | some value => content value
  | none => isDefault

/-- Something, or `null` for nothing. -/
def OrNull {α : Type} (isSpelledBy : α → Json → Prop) : Option α → Json → Prop
  | some value, json => isSpelledBy value json
  | none, json => json = .null

/-- A text. -/
def TextIsSpelledBy (text : String) (json : Json) : Prop := json = .string text

/-- A flag. -/
def FlagIsSpelledBy (flag : Bool) (json : Json) : Prop := json = .bool flag

/-- Annotations: an object of any documents, in which repeated names are resolved. -/
def AnnotationsAreSpelledBy (annotations : List (String × Json)) (json : Json) : Prop :=
  json.resolved = .object annotations

/-! ## (2) Leaves and conversions -/

/-- A leaf kind. -/
def LeafIsSpelledBy (kind : LeafType) (json : Json) : Prop :=
  match kind with
  | .named name => IsVariant "named" (TextIsSpelledBy name) json
  | plain => IsUnitVariant plain.name json

/-- The values under a name, in order. -/
def valuesOf (members : List (String × Json)) (name : String) : List Json :=
  (members.filter fun member => member.1 = name).map Prod.snd

/-- The two texts of truth values: once each among members of any other names, or in an array. -/
def BooleanIsSpelledBy (truthy falsy : String) (json : Json) : Prop :=
  (∃ members, json = .object members ∧ valuesOf members "true" = [.string truthy] ∧
    valuesOf members "false" = [.string falsy]) ∨
  json = .array [.string truthy, .string falsy]

/-! ## (3) Schemas -/

mutual

/-- **A document that JSON spells.** -/
def IsSpelledBy : SchemaDocument → Json → Prop
  | .leaf kind, json => IsVariant "leaf" (LeafIsSpelledBy kind) json
  | .struct fields index, json =>
      IsVariant "struct" (fun content => ∃ members, IsRecord ["fields", "index"] content members ∧
        Holds members "fields" (FieldsAreSpelledBy fields) ∧
        HoldsUnless members "index" (index = none) (IndexIsSpelledBy index)) json
  | .tuple elements rest isReadonly, json =>
      IsVariant "tuple" (fun content => ∃ members,
        IsRecord ["elements", "rest", "readonly"] content members ∧
        HoldsUnless members "elements" (elements = []) (ElementsAreSpelledBy elements) ∧
        HoldsUnless members "rest" (rest = none) (RestIsSpelledBy rest) ∧
        HoldsUnless members "readonly" (isReadonly = false) (FlagIsSpelledBy isReadonly)) json
  | .timestampText, json => IsVariant "codec" (IsUnitVariant "date-from-string") json
  | .booleanText truthy falsy, json =>
      IsVariant "codec" (IsVariant "boolean-from-literal" (BooleanIsSpelledBy truthy falsy)) json

/-- The fields of a struct: an array of fields. -/
def FieldsAreSpelledBy : List (Field SchemaDocument) → Json → Prop
  | [], json => json = .array []
  | field :: fields, json => ∃ item items, json = .array (item :: items) ∧
      FieldIsSpelledBy field item ∧ FieldsAreSpelledBy fields (.array items)

/-- A field. -/
def FieldIsSpelledBy : Field SchemaDocument → Json → Prop
  | ⟨name, type, isOptional, isReadonly, rename, annotations⟩, json => ∃ members,
      IsRecord ["name", "type", "optional", "readonly", "rename", "annotations"] json members ∧
      Holds members "name" (TextIsSpelledBy name) ∧ Holds members "type" type.IsSpelledBy ∧
      HoldsUnless members "optional" (isOptional = false) (FlagIsSpelledBy isOptional) ∧
      HoldsUnless members "readonly" (isReadonly = false) (FlagIsSpelledBy isReadonly) ∧
      HoldsUnless members "rename" (rename = none) (OrNull TextIsSpelledBy rename) ∧
      HoldsUnless members "annotations" (annotations = []) (AnnotationsAreSpelledBy annotations)

/-- The index signature of a struct, or `null` for none. -/
def IndexIsSpelledBy : Option (IndexEntry SchemaDocument) → Json → Prop
  | none, json => json = .null
  | some entry, json => EntryIsSpelledBy entry json

/-- An index signature. -/
def EntryIsSpelledBy : IndexEntry SchemaDocument → Json → Prop
  | ⟨key, value, isReadonly⟩, json => ∃ members, IsRecord ["key", "type", "readonly"] json members ∧
      HoldsUnless members "key" (key = none) (OrNull LeafIsSpelledBy key) ∧
      Holds members "type" value.IsSpelledBy ∧
      HoldsUnless members "readonly" (isReadonly = false) (FlagIsSpelledBy isReadonly)

/-- The elements of a tuple: an array of elements. -/
def ElementsAreSpelledBy : List (Element SchemaDocument) → Json → Prop
  | [], json => json = .array []
  | element :: elements, json => ∃ item items, json = .array (item :: items) ∧
      ElementIsSpelledBy element item ∧ ElementsAreSpelledBy elements (.array items)

/-- An element. -/
def ElementIsSpelledBy : Element SchemaDocument → Json → Prop
  | ⟨type, isOptional⟩, json => ∃ members, IsRecord ["type", "optional"] json members ∧
      Holds members "type" type.IsSpelledBy ∧
      HoldsUnless members "optional" (isOptional = false) (FlagIsSpelledBy isOptional)

/-- The rest type of a tuple, or `null` for none. -/
def RestIsSpelledBy : Option SchemaDocument → Json → Prop
  | none, json => json = .null
  | some type, json => type.IsSpelledBy json

end

end SchemaDocument

end WireSchema

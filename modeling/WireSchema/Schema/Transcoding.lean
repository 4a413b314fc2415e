import WireSchema.Schema.Basic

/-! # Transcoding

Carrying a value through a schema in either direction. A struct picks out its declared fields and
passes undeclared keys through its index type, or drops them; a tuple takes its items position by
position; a codec carries the value through the near side, through its conversion and through the
far side; a leaf passes it on.

Error paths point into the value handed in. Behind a conversion that renames keys the value carries
the names of the other side, so that the walk on the far side is given the function that leads back
from field names to the names of the input. -/

namespace WireSchema.Schema

/-- The numbers of items that a tuple admits, as errors show them. -/
def arityText (required total : Nat) (hasRest : Bool) : String :=
  if hasRest then s!"at least {required}"
  else if required = total then s!"{total}"
  else s!"{required} to {total}"

/-- The number of elements that must be there. -/
def requiredCount (elements : List (Element Schema)) : Nat :=
  (elements.filter fun element => !element.isOptional).length

/-- Whether a tuple admits a number of items. -/
def admitsArity (elements : List (Element Schema)) (hasRest : Bool) (count : Nat) : Bool :=
  requiredCount elements ≤ count && (hasRest || count ≤ elements.length)

/-- The name that the input gives to a field on the far side of a conversion. -/
def inputName (conversion : Conversion) (side : Side) (name : String) : String :=
  (conversion.keyOn? name side).getD name

mutual

/-- Carry the value at `path` through a schema; `inputName` leads from the field names of a struct
to the names in the input. -/
def transcodeAt (direction : Direction) (path : String) (inputName : String → String) :
    Schema → Value → Except TranscodingError Value
  | .leaf _, value => .ok value
  | .struct fields index, value =>
      match value with
      | .object members => do
          let declared ← transcodeFields direction path inputName members fields []
          let all ← transcodeOpen direction path (fields.map Field.name) members index declared
          return .object all
      | other => .error ⟨path, .wrongKind "object" other.kind⟩
  | .tuple elements rest _, value =>
      match value with
      | .array items =>
          if admitsArity elements rest.isSome items.length then do
            let outputs ← transcodeElements direction path 0 elements items
            let others ←
              transcodeRest direction path elements.length rest (items.drop elements.length)
            return .array (outputs ++ others)
          else
            .error ⟨path, .wrongArity
              (arityText (requiredCount elements) elements.length rest.isSome) items.length⟩
      | other => .error ⟨path, .wrongKind "array" other.kind⟩
  | .codec source target conversion, value => do
      -- behind the conversion fields may bear other names than the input gives them
      let far := Schema.inputName conversion direction.inputSide
      match direction with
      | .decode =>
          let near ← transcodeAt .decode path id source value
          let carried ← (conversion.decode near).mapError (·.anchored path)
          transcodeAt .decode path far target carried
      | .encode =>
          let near ← transcodeAt .encode path id target value
          let carried ← (conversion.encode near).mapError (·.anchored path)
          transcodeAt .encode path far source carried

/-- Carry the declared fields of an object, added to the members before them. -/
def transcodeFields (direction : Direction) (path : String) (inputName : String → String)
    (members : List (String × Value)) :
    List (Field Schema) → List (String × Value) → Except TranscodingError (List (String × Value))
  | [], before => .ok before
  | field :: rest, before =>
      match Members.find? members field.name with
      | some value => do
          let output ← transcodeAt direction (Pointer.child path (inputName field.name)) id
            field.type value
          transcodeFields direction path inputName members rest
            (Members.insert before field.name output)
      | none =>
          if field.isOptional then transcodeFields direction path inputName members rest before
          else .error ⟨path, .missingKey (inputName field.name) direction.inputSide⟩

/-- Carry the undeclared members of an object through an index type, added to the members before
them; without an index type they are dropped. -/
def transcodeOpen (direction : Direction) (path : String) (declared : List String)
    (members : List (String × Value)) :
    Option (IndexSignature Schema) → List (String × Value) →
      Except TranscodingError (List (String × Value))
  | none, before => .ok before
  | some index, before =>
      members.foldlM (fun outputs (key, value) =>
        if declared.contains key then .ok outputs
        else do
          let output ← transcodeAt direction (Pointer.child path key) id index.value value
          return Members.insert outputs key output) before

/-- Carry items through the elements at their positions, as far as there are both. -/
def transcodeElements (direction : Direction) (path : String) :
    Nat → List (Element Schema) → List Value → Except TranscodingError (List Value)
  | index, element :: elements, item :: items => do
      let output ← transcodeAt direction (Pointer.child path (Pointer.position index)) id
        element.type item
      let outputs ← transcodeElements direction path (index + 1) elements items
      return output :: outputs
  | _, _, _ => .ok []

/-- Carry the items from position `index` on through a rest type. -/
def transcodeRest (direction : Direction) (path : String) :
    Nat → Option Schema → List Value → Except TranscodingError (List Value)
  | _, none, _ => .ok []
  | index, some rest, items =>
      (items.zipIdx index).mapM fun (item, position) =>
        transcodeAt direction (Pointer.child path (Pointer.position position)) id rest item

end

/-- Carry a value through a schema in a direction. -/
def transcode (direction : Direction) (schema : Schema) (value : Value) :
    Except TranscodingError Value :=
  transcodeAt direction "" id schema value

/-- From the decoded side to the encoded side. -/
def encode (schema : Schema) (value : Value) : Except TranscodingError Value :=
  schema.transcode .encode value

/-- From the encoded side to the decoded side. -/
def decode (schema : Schema) (value : Value) : Except TranscodingError Value :=
  schema.transcode .decode value

end WireSchema.Schema

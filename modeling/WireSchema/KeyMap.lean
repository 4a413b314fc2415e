import WireSchema.TranscodingError
import WireSchema.Value

/-! # Key maps

A key map pairs the names that the fields of one object have on the two sides. Carrying an object
across gives each declared field its name on the other side; undeclared keys are kept as they are
when the map is open, unless they would take the place of a declared field, and dropped when it is
closed. -/

namespace WireSchema

/-- The names of one field on the two sides. -/
structure KeyPair where
  /-- The name on the decoded side. -/
  decoded : String
  /-- The name on the encoded side. -/
  encoded : String
  /-- Whether the field may be absent. -/
  isOptional : Bool
  deriving DecidableEq

/-- The name of a field on a side. -/
def KeyPair.on (pair : KeyPair) : Side → String
  | .encoded => pair.encoded
  | .decoded => pair.decoded

/-- **A key map**. -/
structure KeyMap where
  /-- The fields, in declaration order. -/
  pairs : List KeyPair
  /-- Whether undeclared keys are kept. -/
  isOpen : Bool
  deriving DecidableEq

namespace KeyMap

/-- Whether a field has the given name on a side. -/
def declares (map : KeyMap) (key : String) (side : Side) : Bool :=
  map.pairs.any fun pair => pair.on side == key

/-- The name on `side` of the first field that is called `key` on the other side. -/
def keyOn? (map : KeyMap) (key : String) (side : Side) : Option String :=
  (map.pairs.find? fun pair => pair.on side.opposite == key).map fun pair => pair.on side

/-- Carry the declared fields of an object over from a side, added to the members before them. -/
def carryDeclared (source : Side) (members : List (String × Value)) :
    List KeyPair → List (String × Value) → Except TranscodingError (List (String × Value))
  | [], before => .ok before
  | pair :: rest, before =>
      match Members.find? members (pair.on source) with
      | some value =>
          carryDeclared source members rest (Members.insert before (pair.on source.opposite) value)
      | none =>
          if pair.isOptional then carryDeclared source members rest before
          else .error ⟨"", .missingKey (pair.on source) source⟩

/-- Keep the undeclared members of an object, added to the members before them. -/
def keepUndeclared (map : KeyMap) (source : Side) :
    List (String × Value) → List (String × Value) →
      Except TranscodingError (List (String × Value))
  | [], before => .ok before
  | (key, value) :: rest, before =>
      if map.declares key source then keepUndeclared map source rest before
      -- here the key would stand for a field on the other side
      else if map.declares key source.opposite then .error ⟨"", .keyCollision key⟩
      else keepUndeclared map source rest (Members.insert before key value)

/-- Carry an object over from a side to the other one. -/
def carry (map : KeyMap) (source : Side) (value : Value) : Except TranscodingError Value :=
  match value with
  | .object members => do
      let declared ← carryDeclared source members map.pairs []
      if map.isOpen then
        let all ← keepUndeclared map source members declared
        return .object all
      else return .object declared
  | other => .error ⟨"", .wrongKind "object" other.kind⟩

end KeyMap

end WireSchema

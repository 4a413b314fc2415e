/-! # Sides

A schema with codecs describes two shapes of one document: the **encoded** side, with the names used
on the wire, and the **decoded** side, with the names used in memory. -/

namespace WireSchema

/-- A side of a codec. -/
inductive Side where
  /-- The outer shape, with the names used on the wire. -/
  | encoded
  /-- The inner shape, with the names used in memory. -/
  | decoded
  deriving DecidableEq

namespace Side

/-- The other side. -/
def opposite : Side → Side
  | .encoded => .decoded
  | .decoded => .encoded

/-- The name of a side. -/
def name : Side → String
  | .encoded => "encoded"
  | .decoded => "decoded"

/-- The side opposite to the opposite side is the side itself. -/
@[simp] theorem opposite_opposite (side : Side) : side.opposite.opposite = side := by
  cases side <;> rfl

end Side

/-- The direction in which a document is carried through a schema. -/
inductive Direction where
  /-- From the decoded side to the encoded side. -/
  | encode
  /-- From the encoded side to the decoded side. -/
  | decode
  deriving DecidableEq

/-- The side whose names the input carries. -/
def Direction.inputSide : Direction → Side
  | .encode => .decoded
  | .decode => .encoded

end WireSchema

import WireSchema.Side

/-! # Transcoding errors

Why a document cannot be carried through a schema, and where: an error holds a JSON pointer into the
value that was handed in. An error raised inside a part is **anchored** by putting the pointer to
the part in front of its own. -/

namespace WireSchema

/-- Why a document cannot be carried through a schema. -/
inductive TranscodingError.Cause where
  /-- A required key is missing on the given side. -/
  | missingKey (key : String) (side : Side)
  /-- A value has another kind than the one expected. -/
  | wrongKind (expected found : String)
  /-- A tuple has too few or too many items. -/
  | wrongArity (expected : String) (found : Nat)
  /-- A conversion rejects a value. -/
  | conversionFailed (conversion message : String)
  /-- An undeclared key would take the place of a declared one on the other side. -/
  | keyCollision (key : String)
  deriving DecidableEq

/-- **A transcoding error**. -/
structure TranscodingError where
  /-- The pointer to the value at fault; empty at the root. -/
  path : String
  /-- What is wrong there. -/
  cause : TranscodingError.Cause
  deriving DecidableEq

namespace TranscodingError

/-- The same error, raised inside the part that `path` points to. -/
def anchored (path : String) (error : TranscodingError) : TranscodingError :=
  { error with path := path ++ error.path }

/-- Anchoring an error keeps its cause. -/
@[simp] theorem cause_anchored (path : String) (error : TranscodingError) :
    (error.anchored path).cause = error.cause := rfl

/-- Anchoring an error puts a path in front of its own. -/
@[simp] theorem path_anchored (path : String) (error : TranscodingError) :
    (error.anchored path).path = path ++ error.path := rfl

/-- Anchoring at the root changes nothing. -/
@[simp] theorem anchored_empty (error : TranscodingError) : error.anchored "" = error := by
  simp [anchored]

/-- A pointer as errors show it: the root is a slash. -/
def shownPath (path : String) : String := if path.isEmpty then "/" else path

/-- The text of an error. -/
def message (error : TranscodingError) : String :=
  let place := shownPath error.path
  match error.cause with
  | .missingKey key side => s!"missing {side.name} key `{key}` at {place}"
  | .wrongKind expected found => s!"expected {expected}, found {found} at {place}"
  | .wrongArity expected found =>
      s!"expected {expected} tuple element(s), found {found} at {place}"
  | .conversionFailed conversion message =>
      s!"conversion `{conversion}` failed at {place}: {message}"
  | .keyCollision key => s!"undeclared key `{key}` collides with a declared field at {place}"

end TranscodingError

end WireSchema

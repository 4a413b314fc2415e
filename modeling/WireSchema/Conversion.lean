import WireSchema.KeyMap
import WireSchema.Timestamp.Parser

/-! # Conversions

A conversion carries values between the two sides of a codec. Its errors point into the value that
it is given. Conversions that rename the keys of an object also tell which key stands for which. -/

namespace WireSchema

/-- **A conversion** between the two sides of a codec. -/
inductive Conversion where
  /-- Timestamps as texts on the encoded side. -/
  | timestampText
  /-- Truth values as one of two texts on the encoded side. -/
  | booleanText (truthy falsy : String)
  /-- Objects with other keys on the encoded side. -/
  | keys (map : KeyMap)
  /-- A conversion from elsewhere: its name, its two functions, and the key on a side that stands
  for a key on the other side, if it renames keys. -/
  | custom (name : String) (decode encode : Value → Except TranscodingError Value)
      (keyOn? : String → Side → Option String)

namespace Conversion

/-- The name of a conversion. -/
def name : Conversion → String
  | .timestampText => "date-from-string"
  | .booleanText _ _ => "boolean-from-literal"
  | .keys _ => "rename-keys"
  | .custom name _ _ _ => name

/-- The error for a value of the wrong kind. -/
def wrongKind (expected : String) (value : Value) : TranscodingError :=
  ⟨"", .wrongKind expected value.kind⟩

/-! ## (1) Timestamps -/

/-- The timestamp that a text denotes. -/
def readTimestamp (text : String) : Except TranscodingError Timestamp :=
  match Timestamp.parse text with
  | .ok timestamp => .ok timestamp
  | .error error =>
      .error ⟨"", .conversionFailed timestampText.name
        s!"`{text}` is not an RFC 3339 timestamp: {error.message}"⟩

/-- From text to timestamp. -/
def decodeTimestamp : Value → Except TranscodingError Value
  | .string text => (readTimestamp text).map .date
  | other => .error (wrongKind "string" other)

/-- From timestamp to text. A document that was written as JSON holds texts in place of timestamps,
so that a text is taken too, and written in the one form that timestamps have. -/
def encodeTimestamp : Value → Except TranscodingError Value
  | .date timestamp => .ok (.string timestamp.render)
  | .string text => (readTimestamp text).map fun timestamp => .string timestamp.render
  | other => .error (wrongKind "date" other)

/-! ## (2) Truth values -/

/-- From text to truth value; a text that stands for both is true. -/
def decodeBoolean (truthy falsy : String) : Value → Except TranscodingError Value
  | .string text =>
      if text = truthy then .ok (.bool true)
      else if text = falsy then .ok (.bool false)
      else .error ⟨"", .conversionFailed (booleanText truthy falsy).name
        s!"expected `{truthy}` or `{falsy}`, found `{text}`"⟩
  | other => .error (wrongKind "string" other)

/-- From truth value to text. -/
def encodeBoolean (truthy falsy : String) : Value → Except TranscodingError Value
  | .bool value => .ok (.string (if value then truthy else falsy))
  | other => .error (wrongKind "boolean" other)

/-! ## (3) All conversions -/

/-- From the encoded side to the decoded side. -/
def decode : Conversion → Value → Except TranscodingError Value
  | .timestampText => decodeTimestamp
  | .booleanText truthy falsy => decodeBoolean truthy falsy
  | .keys map => map.carry .encoded
  | .custom _ decode _ _ => decode

/-- From the decoded side to the encoded side. -/
def encode : Conversion → Value → Except TranscodingError Value
  | .timestampText => encodeTimestamp
  | .booleanText truthy falsy => encodeBoolean truthy falsy
  | .keys map => map.carry .decoded
  | .custom _ _ encode _ => encode

/-- Carry a value over in the given direction. -/
def run (conversion : Conversion) : Direction → Value → Except TranscodingError Value
  | .encode => conversion.encode
  | .decode => conversion.decode

/-- The key on `side` that stands for `key` on the other side, if the conversion renames keys and
knows it. -/
def keyOn? : Conversion → String → Side → Option String
  | .keys map => map.keyOn?
  | .custom _ _ _ keyOn? => keyOn?
  | _ => fun _ _ => none

end Conversion

end WireSchema

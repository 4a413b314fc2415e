import WireSchema.Json.Number
import WireSchema.Members

/-! # JSON documents

Documents with ordered objects. The names of an object built here are distinct; among the members of
a written object the last value of a name counts, at the place of the first. -/

namespace WireSchema

/-- **A JSON document**. -/
inductive Json where
  /-- The document `null`. -/
  | null
  /-- A truth value. -/
  | bool (value : Bool)
  /-- A number. -/
  | number (value : Number)
  /-- A text. -/
  | string (value : String)
  /-- A sequence of documents. -/
  | array (items : List Json)
  /-- Named documents, in order. -/
  | object (members : List (String × Json))

namespace Json

/-- A JSON text whose value is a natural number. -/
def nat (n : Nat) : Json := .number (.integer n)

end Json

end WireSchema

import WireSchema.Json.Pointer
import WireSchema.Timestamp.Printer

/-! # Values

The values that move through a schema: JSON documents that may also hold timestamps. Two values are
**the same** when they differ at most in the order of object members, at any depth. -/

namespace WireSchema

/-- **A value**. -/
inductive Value where
  /-- The value `null`. -/
  | null
  /-- A truth value. -/
  | bool (value : Bool)
  /-- A number. -/
  | number (value : Number)
  /-- A text. -/
  | string (value : String)
  /-- A timestamp, which JSON can only hold as text. -/
  | date (value : Timestamp)
  /-- A sequence of values. -/
  | array (items : List Value)
  /-- Named values, in order. -/
  | object (members : List (String × Value))

namespace Value

/-! ## (1) Parts -/

/-- The name of the kind of a value. -/
def kind : Value → String
  | .null => "null"
  | .bool _ => "boolean"
  | .number _ => "number"
  | .string _ => "string"
  | .date _ => "date"
  | .array _ => "array"
  | .object _ => "object"

/-- The members of an object. -/
def members? : Value → Option (List (String × Value))
  | .object members => some members
  | _ => none

/-- The items of an array. -/
def items? : Value → Option (List Value)
  | .array items => some items
  | _ => none

/-- The text that a value is. -/
def text? : Value → Option String
  | .string value => some value
  | _ => none

/-- The member of an object called `name`. -/
def get? (value : Value) (name : String) : Option Value := do
  let members ← value.members?
  Members.find? members name

/-! ## (2) Comparison -/

mutual

/-- Whether two values are the same. -/
def same : Value → Value → Bool
  | .null, .null => true
  | .bool left, .bool right => left == right
  | .number left, .number right => left.same right
  | .string left, .string right => left == right
  | .date left, .date right => left == right
  | .array left, .array right => sameItems left right
  | .object left, .object right => left.length == right.length && sameMembers left right
  | _, _ => false

/-- Whether two arrays have the same items. -/
def sameItems : List Value → List Value → Bool
  | [], [] => true
  | left :: lefts, right :: rights => same left right && sameItems lefts rights
  | _, _ => false

/-- Whether each of the members on the left is found with the same value on the right. -/
def sameMembers : List (String × Value) → List (String × Value) → Bool
  | [], _ => true
  | (name, left) :: rest, rights =>
      (match Members.find? rights name with
        | some right => same left right
        | none => false) && sameMembers rest rights

end

mutual

/-- Whether two values are equal, the order of members included. -/
def decEq : (left right : Value) → Decidable (left = right)
  | .null, right =>
      match right with
      | .null => isTrue rfl
      | .bool _ | .number _ | .string _ | .date _ | .array _ | .object _ => isFalse nofun
  | .bool left, right =>
      match right with
      | .bool right => decidable_of_decidable_of_iff (bool.injEq left right).symm.to_iff
      | .null | .number _ | .string _ | .date _ | .array _ | .object _ => isFalse nofun
  | .number left, right =>
      match right with
      | .number right => decidable_of_decidable_of_iff (number.injEq left right).symm.to_iff
      | .null | .bool _ | .string _ | .date _ | .array _ | .object _ => isFalse nofun
  | .string left, right =>
      match right with
      | .string right => decidable_of_decidable_of_iff (string.injEq left right).symm.to_iff
      | .null | .bool _ | .number _ | .date _ | .array _ | .object _ => isFalse nofun
  | .date left, right =>
      match right with
      | .date right => decidable_of_decidable_of_iff (date.injEq left right).symm.to_iff
      | .null | .bool _ | .number _ | .string _ | .array _ | .object _ => isFalse nofun
  | .array lefts, right =>
      match right with
      | .array rights =>
          have := decEqItems lefts rights
          decidable_of_decidable_of_iff (array.injEq lefts rights).symm.to_iff
      | .null | .bool _ | .number _ | .string _ | .date _ | .object _ => isFalse nofun
  | .object lefts, right =>
      match right with
      | .object rights =>
          have := decEqMembers lefts rights
          decidable_of_decidable_of_iff (object.injEq lefts rights).symm.to_iff
      | .null | .bool _ | .number _ | .string _ | .date _ | .array _ => isFalse nofun

/-- Whether two arrays have equal items. -/
def decEqItems : (lefts rights : List Value) → Decidable (lefts = rights)
  | [], [] => isTrue rfl
  | left :: lefts, right :: rights =>
      have := decEq left right
      have := decEqItems lefts rights
      decidable_of_decidable_of_iff List.cons_eq_cons.symm
  | [], _ :: _ | _ :: _, [] => isFalse nofun

/-- Whether two objects have equal members in one order. -/
def decEqMembers : (lefts rights : List (String × Value)) → Decidable (lefts = rights)
  | [], [] => isTrue rfl
  | (name, left) :: lefts, (other, right) :: rights =>
      have := decEq left right
      have := decEqMembers lefts rights
      have iff : (name = other ∧ left = right) ∧ lefts = rights ↔
          (name, left) :: lefts = (other, right) :: rights := by
        rw [List.cons.injEq, Prod.mk.injEq]
      decidable_of_decidable_of_iff iff
  | [], _ :: _ | _ :: _, [] => isFalse nofun

end

instance : DecidableEq Value := decEq

/-! ## (3) JSON -/

mutual

/-- A JSON document as a value. -/
def ofJson : Json → Value
  | .null => .null
  | .bool value => .bool value
  | .number value => .number value
  | .string value => .string value
  | .array items => .array (ofJsonItems items)
  | .object members => .object (ofJsonMembers members)

/-- The items of a JSON array as values. -/
def ofJsonItems : List Json → List Value
  | [] => []
  | item :: rest => ofJson item :: ofJsonItems rest

/-- The members of a JSON object as values. -/
def ofJsonMembers : List (String × Json) → List (String × Value)
  | [] => []
  | (name, value) :: rest => (name, ofJson value) :: ofJsonMembers rest

end

mutual

/-- A value as a JSON document; timestamps become their texts. -/
def toJson : Value → Json
  | .null => .null
  | .bool value => .bool value
  | .number value => .number value
  | .string value => .string value
  | .date value => .string value.render
  | .array items => .array (toJsonItems items)
  | .object members => .object (toJsonMembers members)

/-- The items of an array as JSON documents. -/
def toJsonItems : List Value → List Json
  | [] => []
  | item :: rest => toJson item :: toJsonItems rest

/-- The members of an object as JSON documents. -/
def toJsonMembers : List (String × Value) → List (String × Json)
  | [] => []
  | (name, value) :: rest => (name, toJson value) :: toJsonMembers rest

end

/-! ## (4) Pointers -/

/-- What a list of segments leads to inside a value. -/
def descend? : Value → List String → Option Value
  | value, [] => some value
  | .object members, segment :: rest => do
      let value ← Members.find? members segment
      descend? value rest
  | .array items, segment :: rest => do
      let index ← Pointer.index? segment
      let item ← items[index]?
      descend? item rest
  | _, _ :: _ => none

/-- What a pointer leads to inside a value. -/
def resolve? (value : Value) (path : String) : Option Value := do
  let segments ← Pointer.segments? path
  descend? value segments

/-- A value in which `inner` stands where a list of segments leads to, if it leads anywhere. -/
def plant? : Value → List String → Value → Option Value
  | _, [], inner => some inner
  | .object members, segment :: rest, inner => do
      let value ← Members.find? members segment
      let planted ← plant? value rest inner
      return .object (Members.insert members segment planted)
  | .array items, segment :: rest, inner => do
      let index ← Pointer.index? segment
      let item ← items[index]?
      let planted ← plant? item rest inner
      return .array (items.set index planted)
  | _, _ :: _, _ => none

/-- A value in which `inner` stands at the place that a pointer leads to, if it leads anywhere. -/
def replace? (value : Value) (path : String) (inner : Value) : Option Value := do
  let segments ← Pointer.segments? path
  plant? value segments inner

mutual

/-- The timestamps inside the value at `path`, each with its pointer, in order. -/
def datesAt (path : String) : Value → List (String × Timestamp)
  | .date value => [(path, value)]
  | .array items => datesAtItems path 0 items
  | .object members => datesAtMembers path members
  | _ => []

/-- The timestamps inside the items of the array at `path`, from position `index` on. -/
def datesAtItems (path : String) (index : Nat) : List Value → List (String × Timestamp)
  | [] => []
  | item :: rest =>
      datesAt (Pointer.child path (Pointer.position index)) item ++
        datesAtItems path (index + 1) rest

/-- The timestamps inside the members of the object at `path`. -/
def datesAtMembers (path : String) : List (String × Value) → List (String × Timestamp)
  | [] => []
  | (name, value) :: rest => datesAt (Pointer.child path name) value ++ datesAtMembers path rest

end

/-- The timestamps inside a value, each with its pointer, in order. -/
def dates (value : Value) : List (String × Timestamp) := datesAt "" value

end Value

end WireSchema

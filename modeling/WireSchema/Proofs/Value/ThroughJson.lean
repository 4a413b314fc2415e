import WireSchema.Proofs.Json.Induction
import WireSchema.Proofs.Members.Insertion
import WireSchema.Value

/-! # Values and their documents

A document is the document of the value that it is read as, while a value comes back from its
document with its timestamps as texts. -/

namespace WireSchema.Value

open Members

/-! ## (1) Equations -/

/-- An array comes from JSON item by item. -/
theorem ofJson_array (items : List Json) : ofJson (.array items) = .array (items.map ofJson) := by
  rw [ofJson]
  congr 1
  induction items with
  | nil => rfl
  | cons item rest induction => rw [ofJsonItems, induction, List.map_cons]

/-- An object comes from JSON value by value. -/
theorem ofJson_object (members : List (String × Json)) :
    ofJson (.object members) = .object (mapValues (fun _ => ofJson) members) := by
  rw [ofJson]
  congr 1
  induction members with
  | nil => rfl
  | cons member rest induction => rw [ofJsonMembers, induction, mapValues_cons]

/-- An array goes to JSON item by item. -/
theorem toJson_array (items : List Value) :
    (Value.array items).toJson = .array (items.map toJson) := by
  rw [toJson]
  congr 1
  induction items with
  | nil => rfl
  | cons item rest induction => rw [toJsonItems, induction, List.map_cons]

/-- An object goes to JSON value by value. -/
theorem toJson_object (members : List (String × Value)) :
    (Value.object members).toJson = .object (mapValues (fun _ => toJson) members) := by
  rw [toJson]
  congr 1
  induction members with
  | nil => rfl
  | cons member rest induction => rw [toJsonMembers, induction, mapValues_cons]

/-! ## (2) Through a document and back -/

/-- **A document comes back** from the value that it is read as. -/
theorem toJson_ofJson (json : Json) : (ofJson json).toJson = json := by
  induction json using Json.induction with
  | null => rfl
  | bool value => rfl
  | number value => rfl
  | string value => rfl
  | array items itemsInduction =>
      rw [ofJson_array, toJson_array, List.map_map]
      exact congrArg Json.array ((List.map_congr_left itemsInduction).trans (List.map_id items))
  | object members membersInduction =>
      rw [ofJson_object, toJson_object, mapValues_mapValues]
      exact congrArg Json.object (mapValues_eq_self_iff.mpr membersInduction)

/-- A value as it comes back from its document. -/
def throughJson (value : Value) : Value := ofJson value.toJson

/-- After a journey as JSON, a value is written as before. -/
theorem toJson_throughJson (value : Value) : value.throughJson.toJson = value.toJson :=
  toJson_ofJson _

/-- A timestamp comes back as its text. -/
theorem throughJson_date (timestamp : Timestamp) :
    (Value.date timestamp).throughJson = .string timestamp.render := rfl

/-- A string stays the same on a journey as JSON. -/
theorem throughJson_string (text : String) :
    (Value.string text).throughJson = .string text := rfl

/-- An array goes on a journey as JSON item by item. -/
theorem throughJson_array (items : List Value) :
    (Value.array items).throughJson = .array (items.map throughJson) := by
  rw [throughJson, toJson_array, ofJson_array, List.map_map]
  rfl

/-- An object goes on a journey as JSON value by value. -/
theorem throughJson_object (members : List (String × Value)) :
    (Value.object members).throughJson = .object (mapValues (fun _ => throughJson) members) := by
  rw [throughJson, toJson_object, ofJson_object, mapValues_mapValues]
  rfl

/-! ## (3) Values that documents hold -/

/-- **A value that a document holds**: it comes back from its document as it is, which is to say
that there is no timestamp in it. -/
def IsJson (value : Value) : Prop := value.throughJson = value

/-- What comes from JSON is held by JSON. -/
theorem isJson_ofJson (json : Json) : (ofJson json).IsJson := by
  rw [IsJson, throughJson, toJson_ofJson]

/-- A date is not held by JSON: it comes back as a text. -/
theorem not_isJson_date (timestamp : Timestamp) : ¬(Value.date timestamp).IsJson := nofun

/-- An array is held by JSON exactly if its items are. -/
theorem isJson_array (items : List Value) :
    (Value.array items).IsJson ↔ ∀ item ∈ items, item.IsJson := by
  rw [IsJson, throughJson_array, Value.array.injEq]
  have each := @List.map_inj_left _ _ items throughJson id
  rw [List.map_id] at each
  exact each

/-- An object is held by JSON exactly if its values are. -/
theorem isJson_object (members : List (String × Value)) :
    (Value.object members).IsJson ↔ ∀ member ∈ members, member.2.IsJson := by
  rw [IsJson, throughJson_object, Value.object.injEq]
  exact mapValues_eq_self_iff

/-- What a document holds under a key is held by a document. -/
theorem IsJson.of_find? {members : List (String × Value)} (isJson : (Value.object members).IsJson)
    {key : String} {value : Value} (found : find? members key = some value) : value.IsJson :=
  (isJson_object members).mp isJson (key, value) (mem_of_find? found)

/-- What a document holds at a position is held by a document. -/
theorem IsJson.of_getElem? {items : List Value} (isJson : (Value.array items).IsJson)
    {position : Nat} {item : Value} (found : items[position]? = some item) : item.IsJson :=
  (isJson_array items).mp isJson item (List.mem_of_getElem? found)

end WireSchema.Value

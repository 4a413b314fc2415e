import WireSchema.Json.Reader
import WireSchema.Proofs.Runs
import WireSchema.Proofs.Value.ThroughJson

/-! # Values with distinct keys

Objects hold each key once. Members are kept as lists, so that this is a property of values: it
holds of all that are read from documents (`hasDistinctKeys_of_parse`), and of all that are made by
inserting. -/

namespace WireSchema.Value

open Members

/-! ## (1) Values -/

mutual

/-- **No object repeats a key**, at any depth. -/
def HasDistinctKeys : Value → Prop
  | .array items => ItemsHaveDistinctKeys items
  | .object members => (keys members).Nodup ∧ MembersHaveDistinctKeys members
  | _ => True

/-- No object inside items repeats a key. -/
def ItemsHaveDistinctKeys : List Value → Prop
  | [] => True
  | item :: rest => HasDistinctKeys item ∧ ItemsHaveDistinctKeys rest

/-- No object inside the values of members repeats a key. -/
def MembersHaveDistinctKeys : List (String × Value) → Prop
  | [] => True
  | (_, value) :: rest => HasDistinctKeys value ∧ MembersHaveDistinctKeys rest

end

/-- Items have distinct keys exactly if each of them does. -/
theorem itemsHaveDistinctKeys_iff (items : List Value) :
    ItemsHaveDistinctKeys items ↔ ∀ item ∈ items, item.HasDistinctKeys := by
  induction items with
  | nil => simp [ItemsHaveDistinctKeys]
  | cons item rest induction => rw [ItemsHaveDistinctKeys, induction, List.forall_mem_cons]

/-- Members have distinct keys inside exactly if each of their values does. -/
theorem membersHaveDistinctKeys_iff (members : List (String × Value)) :
    MembersHaveDistinctKeys members ↔ ∀ member ∈ members, member.2.HasDistinctKeys := by
  induction members with
  | nil => simp [MembersHaveDistinctKeys]
  | cons member rest induction =>
      obtain ⟨key, value⟩ := member
      rw [MembersHaveDistinctKeys, induction, List.forall_mem_cons]

/-- An array has distinct keys exactly if its items do. -/
theorem hasDistinctKeys_array (items : List Value) :
    (Value.array items).HasDistinctKeys ↔ ∀ item ∈ items, item.HasDistinctKeys := by
  rw [HasDistinctKeys, itemsHaveDistinctKeys_iff]

/-- An object has distinct keys exactly if its own keys are distinct and its values have distinct
ones. -/
theorem hasDistinctKeys_object (members : List (String × Value)) :
    (Value.object members).HasDistinctKeys ↔
      (keys members).Nodup ∧ ∀ member ∈ members, member.2.HasDistinctKeys := by
  rw [HasDistinctKeys, membersHaveDistinctKeys_iff]

/-- The own keys of an object with distinct keys are distinct. -/
theorem HasDistinctKeys.nodup_keys {members : List (String × Value)}
    (distinct : (Value.object members).HasDistinctKeys) : (keys members).Nodup :=
  ((hasDistinctKeys_object members).mp distinct).1

/-- What stands under a key of an object repeats no key. -/
theorem HasDistinctKeys.of_find? {members : List (String × Value)}
    (distinct : (Value.object members).HasDistinctKeys) {key : String} {value : Value}
    (found : find? members key = some value) : value.HasDistinctKeys :=
  ((hasDistinctKeys_object members).mp distinct).2 (key, value) (mem_of_find? found)

/-- What stands at a position of an array repeats no key. -/
theorem HasDistinctKeys.of_getElem? {items : List Value}
    (distinct : (Value.array items).HasDistinctKeys) {position : Nat} {item : Value}
    (found : items[position]? = some item) : item.HasDistinctKeys :=
  (hasDistinctKeys_array items).mp distinct item (List.mem_of_getElem? found)

/-- An object whose members are written one after the other repeats no key. -/
theorem HasDistinctKeys.insert {members : List (String × Value)}
    (distinct : (Value.object members).HasDistinctKeys) (name : String) {value : Value}
    (valueDistinct : value.HasDistinctKeys) :
    (Value.object (Members.insert members name value)).HasDistinctKeys := by
  have unique := nodup_keys_insert distinct.nodup_keys name value
  refine (hasDistinctKeys_object _).mpr ⟨unique, fun member held => ?_⟩
  have found := find?_of_mem unique held
  by_cases same : member.1 = name
  · rw [same, find?_insert_self] at found
    cases found
    exact valueDistinct
  · rw [find?_insert_of_ne members value same] at found
    exact distinct.of_find? found

/-! ## (2) Documents -/

mutual

/-- The document that is read from a tree repeats no key. -/
theorem hasDistinctKeys_of_readAt (levels : Nat) (location : Json.Location) :
    ∀ (written : Json.Written) {json : Json}, Json.readAt levels location written = .ok json →
      (ofJson json).HasDistinctKeys
  | .null, json, reads => by
      cases reads
      trivial
  | .bool value, json, reads => by
      cases reads
      trivial
  | .number value, json, reads => by
      obtain ⟨number, _, rfl⟩ := map_eq_ok_iff.mp reads
      trivial
  | .string pieces, json, reads => by
      obtain ⟨text, _, rfl⟩ := map_eq_ok_iff.mp reads
      trivial
  | .array items ending, json, reads => by
      rw [Json.readAt] at reads
      obtain ⟨inner, _, reads⟩ := bind_eq_ok_iff.mp reads
      obtain ⟨values, readsItems, reads⟩ := bind_eq_ok_iff.mp reads
      obtain ⟨_, _, gives⟩ := bind_eq_ok_iff.mp reads
      cases gives
      rw [ofJson_array, hasDistinctKeys_array]
      exact List.forall_mem_map.mpr (hasDistinctKeys_of_readItems inner location 0 items readsItems)
  | .object members ending, json, reads => by
      rw [Json.readAt] at reads
      obtain ⟨inner, _, reads⟩ := bind_eq_ok_iff.mp reads
      obtain ⟨values, readsMembers, reads⟩ := bind_eq_ok_iff.mp reads
      obtain ⟨_, _, gives⟩ := bind_eq_ok_iff.mp reads
      cases gives
      have none : (ofJson (.object [])).HasDistinctKeys := ⟨List.nodup_nil, trivial⟩
      -- members are read by inserting them, which repeats no key
      exact hasDistinctKeys_of_readMembers inner location members none readsMembers
  | .misspeltNull error, json, reads => by cases reads
  | .broken error, json, reads => by cases reads

/-- The documents that are read from items repeat no key. -/
theorem hasDistinctKeys_of_readItems (levels : Nat) (location : Json.Location) (position : Nat) :
    ∀ (items : List Json.Written) {values : List Json},
      Json.readItems levels location position items = .ok values →
        ∀ value ∈ values, (ofJson value).HasDistinctKeys
  | [], values, reads => by
      cases reads
      exact nofun
  | item :: rest, values, reads => by
      rw [Json.readItems] at reads
      obtain ⟨first, readsFirst, reads⟩ := bind_eq_ok_iff.mp reads
      obtain ⟨others, readsOthers, gives⟩ := bind_eq_ok_iff.mp reads
      cases gives
      exact List.forall_mem_cons.mpr ⟨hasDistinctKeys_of_readAt levels _ item readsFirst,
        hasDistinctKeys_of_readItems levels location (position + 1) rest readsOthers⟩

/-- The object to which members have been added repeats no key, if it did not before. -/
theorem hasDistinctKeys_of_readMembers (levels : Nat) (location : Json.Location) :
    ∀ (members : List (List Json.Piece × Json.Written)) {before after : List (String × Json)},
      (ofJson (.object before)).HasDistinctKeys →
      Json.readMembers levels location members before = .ok after →
        (ofJson (.object after)).HasDistinctKeys
  | [], before, after, distinct, reads => by
      cases reads
      exact distinct
  | (pieces, written) :: rest, before, after, distinct, reads => by
      rw [Json.readMembers] at reads
      obtain ⟨name, _, reads⟩ := bind_eq_ok_iff.mp reads
      obtain ⟨_, _, reads⟩ := bind_eq_ok_iff.mp reads
      obtain ⟨value, readsValue, reads⟩ := bind_eq_ok_iff.mp reads
      refine hasDistinctKeys_of_readMembers levels location rest ?_ reads
      rw [ofJson_object] at distinct ⊢
      rw [← insert_mapValues]
      exact distinct.insert name (hasDistinctKeys_of_readAt levels _ written readsValue)

end

/-- **A document that is read repeats no key**: of repeated names the last value counts. -/
theorem hasDistinctKeys_of_parse {text : String} {json : Json}
    (parses : Json.parse text = .ok json) : (ofJson json).HasDistinctKeys := by
  obtain ⟨document, reads, gives⟩ := bind_eq_ok_iff.mp parses
  have same : document = json := by
    split at gives
    · exact Except.ok.inj gives
    · cases gives
  subst same
  exact hasDistinctKeys_of_readAt _ _ _ (mapError_eq_ok_iff.mp reads)

end WireSchema.Value

/-! # Ordered members

The members of an object: named entries kept in the order in which the names first appeared.
Writing to a name that is present replaces its entry in place, so of two entries with one name
the last value stands at the place of the first. -/

namespace WireSchema

/-- **Ordered members**: names with their entries, in order of first appearance. -/
abbrev Members (α : Type) : Type := List (String × α)

namespace Members

variable {α β : Type}

/-- The entry of the first member called `name`. -/
def find? : List (String × α) → String → Option α
  | [], _ => none
  | (key, entry) :: rest, name => if key = name then some entry else find? rest name

@[simp] theorem find?_nil (name : String) : find? ([] : List (String × α)) name = none := rfl

/-- An entry is found at the first key that is the name. -/
theorem find?_cons (key : String) (entry : α) (rest : List (String × α)) (name : String) :
    find? ((key, entry) :: rest) name = if key = name then some entry else find? rest name := rfl

/-- Whether some member is called `name`. -/
def contains (members : List (String × α)) (name : String) : Bool := (find? members name).isSome

/-- The names of the members, in order. -/
def keys (members : List (String × α)) : List String := members.map Prod.fst

/-- A name is found exactly when it is one of the names. -/
theorem contains_iff (members : List (String × α)) (name : String) :
    contains members name = true ↔ name ∈ keys members := by
  induction members with
  | nil => simp [contains, keys]
  | cons member rest induction =>
      obtain ⟨key, entry⟩ := member
      simp only [contains, keys] at induction
      by_cases same : key = name
      · simp [contains, keys, find?_cons, same]
      · simp [contains, keys, find?_cons, same, induction, Ne.symm same]

/-- Write `entry` under `name`: in place of the first member called `name`, else at the end. -/
def insert : List (String × α) → String → α → List (String × α)
  | [], name, entry => [(name, entry)]
  | (key, old) :: rest, name, entry =>
      if key = name then (key, entry) :: rest else (key, old) :: insert rest name entry

/-- What was written under a name is found there. -/
@[simp] theorem find?_insert_self (members : List (String × α)) (name : String) (entry : α) :
    find? (insert members name entry) name = some entry := by
  induction members with
  | nil => simp [insert, find?]
  | cons member rest induction =>
      obtain ⟨key, old⟩ := member
      by_cases same : key = name <;> simp [insert, find?, same, induction]

/-- Writing under one name leaves every other name as it was. -/
theorem find?_insert_of_ne (members : List (String × α)) {name other : String} (entry : α)
    (different : other ≠ name) :
    find? (insert members name entry) other = find? members other := by
  induction members with
  | nil => simp [insert, find?, Ne.symm different]
  | cons member rest induction =>
      obtain ⟨key, old⟩ := member
      by_cases same : key = name
      · subst same
        simp [insert, find?, Ne.symm different]
      · simp only [insert, if_neg same, find?_cons, induction]

/-- Writing under a name that is present keeps the names and their order; else the name is added at
the end. -/
theorem keys_insert (members : List (String × α)) (name : String) (entry : α) :
    keys (insert members name entry) =
      if contains members name then keys members else keys members ++ [name] := by
  induction members with
  | nil => simp [insert, keys, contains]
  | cons member rest induction =>
      obtain ⟨key, old⟩ := member
      simp only [keys, contains] at induction
      by_cases same : key = name
      · simp [insert, keys, contains, find?_cons, same]
      · by_cases present : (find? rest name).isSome = true
        · simp [insert, keys, contains, find?_cons, same, induction, present]
        · simp [insert, keys, contains, find?_cons, same, induction, present]

/-- Members made by writing the given entries one after the other. -/
def ofList (entries : List (String × α)) : List (String × α) :=
  entries.foldl (fun members entry => insert members entry.1 entry.2) []

end Members

end WireSchema

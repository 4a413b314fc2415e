import WireSchema.Json.Reader
import WireSchema.Proofs.Json.Showing
import WireSchema.Proofs.Runs

/-! # Reading trees

A tree that shows a document is read as the document with its repeated names resolved, unless it is
nested too deeply (`isReadAt_of_depth_le`). -/

namespace WireSchema.Json

open Written (Shows ShowItems ShowMembers)

/-! ## (1) Repeated names and depths -/

mutual

/-- A document in which repeated names are **resolved**, at every depth: the last value of a name
counts (`Members.find?_ofList`), at the place of the first (`Members.keys_ofList`). -/
def resolved : Json → Json
  | .array items => .array (resolvedItems items)
  | .object members => .object (Members.ofList (resolvedMembers members))
  | json => json

/-- The items of an array with repeated names resolved in them. -/
def resolvedItems : List Json → List Json
  | [] => []
  | item :: rest => item.resolved :: resolvedItems rest

/-- The members of an object, which may still repeat, with repeated names resolved in them. -/
def resolvedMembers : List (String × Json) → List (String × Json)
  | [] => []
  | (name, value) :: rest => (name, value.resolved) :: resolvedMembers rest

end

mutual

/-- **The depth** of a document: how many arrays and objects are nested in each other. -/
def depth : Json → Nat
  | .array items => itemsDepth items + 1
  | .object members => membersDepth members + 1
  | _ => 0

/-- The depth of the deepest item. -/
def itemsDepth : List Json → Nat
  | [] => 0
  | item :: rest => max item.depth (itemsDepth rest)

/-- The depth of the deepest member. -/
def membersDepth : List (String × Json) → Nat
  | [] => 0
  | (_, value) :: rest => max value.depth (membersDepth rest)

end

/-- Items are as deep as the deepest of them. -/
theorem itemsDepth_le_iff {items : List Json} {levels : Nat} :
    itemsDepth items ≤ levels ↔ ∀ item ∈ items, item.depth ≤ levels := by
  induction items with
  | nil => simp [itemsDepth]
  | cons item rest induction => rw [itemsDepth, Nat.max_le, induction, List.forall_mem_cons]

/-- Members are as deep as the deepest of their values. -/
theorem membersDepth_le_iff {members : List (String × Json)} {levels : Nat} :
    membersDepth members ≤ levels ↔ ∀ member ∈ members, member.2.depth ≤ levels := by
  induction members with
  | nil => simp [membersDepth]
  | cons member rest induction =>
      obtain ⟨name, value⟩ := member
      rw [membersDepth, Nat.max_le, induction, List.forall_mem_cons]

/-- An array is nested within some levels when there is a level for it and its items are nested
within the others. -/
theorem depth_array_le_iff {items : List Json} {levels : Nat} :
    (Json.array items).depth ≤ levels ↔
      ∃ inner, enter levels = .ok inner ∧ ∀ item ∈ items, item.depth ≤ inner := by
  cases levels with
  | zero => simp [depth, enter]
  | succ inner =>
      rw [depth, Nat.add_le_add_iff_right, itemsDepth_le_iff]
      simp [enter]

/-- An object fits a depth exactly if a level can be entered and each member fits what remains. -/
theorem depth_object_le_iff {members : List (String × Json)} {levels : Nat} :
    (Json.object members).depth ≤ levels ↔
      ∃ inner, enter levels = .ok inner ∧ ∀ member ∈ members, member.2.depth ≤ inner := by
  cases levels with
  | zero => simp [depth, enter]
  | succ inner =>
      rw [depth, Nat.add_le_add_iff_right, membersDepth_le_iff]
      simp [enter]

/-! ## (2) Reading -/

/-- What shows a document is there, and has its colon in front of it if it is a member. -/
theorem colonBefore_of_shows {written : Written} {json : Json} (shown : Shows written json) :
    colonBefore written = .ok () := by
  cases shown <;> rfl

/-- A reader **reads** a document, at any location, where it gives the document with repeated names
resolved for every tree that shows it. -/
def IsReadAt (levels : Nat) (json : Json) : Prop :=
  ∀ location written, Shows written json → readAt levels location written = .ok json.resolved

/-- Items that are each read at this depth are read one after the other. -/
theorem readItems_eq_ok {levels : Nat} {values : List Json}
    (each : ∀ value ∈ values, IsReadAt levels value) (location : Location) (position : Nat)
    {items : List Written} (shown : ShowItems items values) :
    readItems levels location position items = .ok (resolvedItems values) := by
  induction values generalizing position items with
  | nil =>
      cases shown
      rfl
  | cons value rest induction =>
      cases shown with | cons first others
      rw [List.forall_mem_cons] at each
      rw [readItems, each.1 _ _ first, ok_bind, induction each.2 _ others, ok_bind, resolvedItems]
      rfl

/-- Members that are each read at this depth are inserted one after the other, so that a later one
takes the value of an earlier one of its name. -/
theorem readMembers_eq_ok {levels : Nat} {values : List (String × Json)}
    (each : ∀ value ∈ values, IsReadAt levels value.2) (location : Location)
    {members : List (List Piece × Written)} (shown : ShowMembers members values)
    (before : List (String × Json)) :
    readMembers levels location members before =
      .ok ((resolvedMembers values).foldl
        (fun members entry => Members.insert members entry.1 entry.2) before) := by
  induction values generalizing members before with
  | nil =>
      cases shown
      rfl
  | cons value rest induction =>
      cases shown with | @cons pieces name _ _ _ _ spells first others
      rw [List.forall_mem_cons] at each
      have named : ∀ place, locate place (.ok name : Except SyntaxError String) = .ok name :=
        fun _ => rfl
      have begun : ∀ place, locate place (.ok () : Except SyntaxError Unit) = .ok () :=
        fun _ => rfl
      rw [readMembers, spells, named, ok_bind, colonBefore_of_shows first, begun, ok_bind,
        each.1 _ _ first, ok_bind, induction each.2 others]
      rfl

/-- **Reading a tree** gives the document that it shows, with repeated names resolved, if that is
not nested too deeply. -/
theorem isReadAt_of_depth_le {json : Json} {levels : Nat} (shallow : json.depth ≤ levels) :
    IsReadAt levels json := by
  induction json using Json.induction generalizing levels with
  | null =>
      rintro location _ ⟨⟩
      rfl
  | bool value =>
      rintro location _ ⟨⟩
      rfl
  | number value =>
      rintro location _ ⟨⟩
      rfl
  | string value =>
      intro location written shown
      cases shown with | string spells
      rw [readAt, spells]
      rfl
  | array items each =>
      intro location written shown
      cases shown with | array shown
      obtain ⟨inner, enters, shallow⟩ := depth_array_le_iff.mp shallow
      -- the depth that is left suffices for one level more
      have entered : locate location (enter levels) = .ok inner := by rw [enters]; rfl
      rw [readAt, entered, ok_bind,
        readItems_eq_ok (fun item member => each item member (shallow item member)) _ _ shown]
      rfl
  | object members each =>
      intro location written shown
      cases shown with | object shown
      obtain ⟨inner, enters, shallow⟩ := depth_object_le_iff.mp shallow
      have entered : locate location (enter levels) = .ok inner := by rw [enters]; rfl
      rw [readAt, entered, ok_bind, readMembers_eq_ok
        (fun member isMember => each member isMember (shallow member isMember)) _ shown]
      rfl

end WireSchema.Json

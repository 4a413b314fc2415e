import WireSchema.Proofs.Pointer
import WireSchema.TranscodingError
import WireSchema.Value

/-! # Places in values

Segments lead from a value to what stands inside it: names into objects, positions into arrays. The
pointer that is built from segments resolves to exactly the place that they lead to, also when an
error puts it together from a pointer to a part and one into the part, and no other segments have
the same pointer (`resolve?_extend_iff`). -/

namespace WireSchema

/-! ## (1) Pointers and segments -/

namespace Pointer

/-- A pointer into a part, behind the pointer to the part, is the pointer to the same place. -/
theorem extend_append_extend (path : String) (front back : List String) :
    extend path front ++ extend "" back = extend path (front ++ back) := by
  rw [← String.toList_inj, String.toList_append]
  simp only [toList_extend, List.flatMap_append, List.append_assoc, String.toList_empty,
    List.nil_append]

/-- Segments are told by their pointer. -/
theorem extend_eq_extend_iff {left right : List String} :
    extend "" left = extend "" right ↔ left = right := by
  constructor
  · intro same
    have read := segments?_extend left
    rw [same, segments?_extend] at read
    exact (Option.some.inj read).symm
  · rintro rfl
    rfl

/-- A segment is added behind a slash, with its tildes and then its slashes replaced. -/
theorem toList_child (path segment : String) :
    (child path segment).toList =
      path.toList ++ '/' :: replaceChar '/' ['~', '1'] (replaceChar '~' ['~', '0']
        segment.toList) := by
  rw [child, String.toList_append, String.toList_ofList, escape_eq_replaceChar]

end Pointer

/-! ## (2) What segments lead to -/

namespace Value

/-- **Segments lead to a place** inside a value. -/
inductive LeadsTo : Value → List String → Value → Prop
  /-- No segments lead to the value itself. -/
  | here (value : Value) : LeadsTo value [] value
  /-- The name of a member leads into it. -/
  | member {members : List (String × Value)} {name : String} {inner place : Value}
      {segments : List String} (found : Members.find? members name = some inner)
      (below : LeadsTo inner segments place) : LeadsTo (.object members) (name :: segments) place
  /-- The position of an item, in decimal digits, leads into it. -/
  | item {items : List Value} {position : Nat} {inner place : Value} {segments : List String}
      (found : items[position]? = some inner) (below : LeadsTo inner segments place) :
      LeadsTo (.array items) (Pointer.position position :: segments) place

/-- Descending by segments ends exactly where they lead to. -/
theorem descend?_eq_some_iff {value place : Value} {segments : List String} :
    value.descend? segments = some place ↔ LeadsTo value segments place := by
  induction segments generalizing value with
  | nil =>
      have root : value.descend? [] = some value := by cases value <;> rfl
      rw [root]
      constructor
      · rintro ⟨⟩
        exact .here _
      · rintro ⟨⟩
        rfl
  | cons segment segments induction =>
      cases value with
      | object members =>
          constructor
          · intro descends
            obtain ⟨inner, found, below⟩ := Option.bind_eq_some_iff.mp descends
            exact .member found (induction.mp below)
          · intro leads
            cases leads with
            | member found below =>
                exact Option.bind_eq_some_iff.mpr ⟨_, found, induction.mpr below⟩
      | array items =>
          constructor
          · intro descends
            obtain ⟨position, names, inside⟩ := Option.bind_eq_some_iff.mp descends
            obtain ⟨inner, found, below⟩ := Option.bind_eq_some_iff.mp inside
            -- digits name a position in one way only
            rw [Pointer.index?_eq_some_iff.mp names]
            exact .item found (induction.mp below)
          · intro leads
            cases leads with
            | item found below =>
                exact Option.bind_eq_some_iff.mpr ⟨_, Pointer.index?_position _,
                  Option.bind_eq_some_iff.mpr ⟨_, found, induction.mpr below⟩⟩
      | _ => exact ⟨nofun, nofun⟩

/-- **Built pointers are faithful.** The pointer that is built from segments, one behind the other,
resolves to a place exactly when the segments lead to it. An error that was raised inside a part,
wherever on the way the part stands, has the same pointer once it is anchored. Other segments have
another pointer. A segment is written by replacing its tildes and then its slashes, and it is read
by undoing this in the reverse order. -/
theorem resolve?_extend_iff (value place : Value) (segments : List String) :
    (value.resolve? (Pointer.extend "" segments) = some place ↔ LeadsTo value segments place) ∧
      (∀ count cause,
        (TranscodingError.anchored (Pointer.extend "" (segments.take count))
          ⟨Pointer.extend "" (segments.drop count), cause⟩).path = Pointer.extend "" segments) ∧
      (∀ others, Pointer.extend "" others = Pointer.extend "" segments ↔ others = segments) ∧
      (∀ path segment, (Pointer.child path segment).toList =
        path.toList ++ '/' :: Pointer.replaceChar '/' ['~', '1']
          (Pointer.replaceChar '~' ['~', '0'] segment.toList)) ∧
      ∀ text, Pointer.unescape text =
        Pointer.replacePair '~' '0' '~' (Pointer.replacePair '~' '1' '/' text) := by
  refine ⟨?_, fun count cause => ?_, fun others => Pointer.extend_eq_extend_iff,
    Pointer.toList_child, Pointer.unescape_eq_replacePair⟩
  · rw [resolve?, Pointer.segments?_extend]
    exact descend?_eq_some_iff
  · rw [TranscodingError.path_anchored, Pointer.extend_append_extend, List.take_append_drop]

/-- A name that looks like an escape, an empty name and one with a slash are told apart. -/
example :
    (Value.object [("~1", .null), ("", .array [.object [("a/b~", .bool true)]])]).resolve?
      (Pointer.extend "" ["", "0", "a/b~"]) = some (.bool true) := rfl

end Value

end WireSchema

import Mathlib.Data.List.Perm.Subperm
import WireSchema.Proofs.Items
import WireSchema.Proofs.Members.Corresponding
import WireSchema.Proofs.Value.DistinctKeys

/-! # Values that compare as the same

What the comparison of values says of their parts: values that are the same are of one kind, arrays
are the same when their items are (`isSame_array_iff`), and objects that repeat no key are the same
when what is found under each key is (`isSame_object_iff`), in whichever order. -/

namespace WireSchema.Value

open Members

/-- **Two values are the same**, up to the order of object members at any depth. This is how values
compare when they are run, where the two zeros among the doubles are one number. -/
def IsSame (left right : Value) : Prop := left.same right = true

instance (left right : Value) : Decidable (left.IsSame right) :=
  inferInstanceAs (Decidable (left.same right = true))

/-! ## (1) Kinds -/

/-- A truth value is the same as itself. -/
theorem isSame_bool (value : Bool) : IsSame (.bool value) (.bool value) := beq_self_eq_true value

/-- A string is the same as itself. -/
theorem isSame_string (text : String) : IsSame (.string text) (.string text) :=
  beq_self_eq_true text

/-- A date is the same as itself. -/
theorem isSame_date (timestamp : Timestamp) : IsSame (.date timestamp) (.date timestamp) :=
  beq_self_eq_true timestamp

/-- Values that are the same are equal, unless they are numbers, arrays or objects. -/
@[elab_as_elim]
theorem IsSame.cases {motive : Value → Value → Prop} {left right : Value} (same : IsSame left right)
    (null : motive .null .null) (bool : ∀ value, motive (.bool value) (.bool value))
    (number : ∀ left right, motive (.number left) (.number right))
    (string : ∀ text, motive (.string text) (.string text))
    (date : ∀ timestamp, motive (.date timestamp) (.date timestamp))
    (array : ∀ lefts rights, IsSame (.array lefts) (.array rights) →
      motive (.array lefts) (.array rights))
    (object : ∀ lefts rights, IsSame (.object lefts) (.object rights) →
      motive (.object lefts) (.object rights)) : motive left right := by
  rw [IsSame] at same
  fun_cases Value.same left right with
  | case1 => exact null
  | case2 left right =>
      rw [Value.same, beq_iff_eq] at same
      exact same ▸ bool left
  | case3 left right => exact number left right
  | case4 left right =>
      rw [Value.same, beq_iff_eq] at same
      exact same ▸ string left
  | case5 left right =>
      rw [Value.same, beq_iff_eq] at same
      exact same ▸ date left
  | case6 lefts rights => exact array lefts rights same
  | case7 lefts rights => exact object lefts rights same
  | case8 =>
      -- values of different kinds are never the same
      rw [Value.same] at same <;> simp_all

/-- Values that are the same are of one kind. -/
theorem IsSame.kind_eq {left right : Value} (same : IsSame left right) :
    left.kind = right.kind :=
  same.cases rfl (fun _ => rfl) (fun _ _ => rfl) (fun _ => rfl) (fun _ => rfl) (fun _ _ _ => rfl)
    fun _ _ _ => rfl

/-- What is the same as an object is one. -/
theorem IsSame.exists_members {members : List (String × Value)} {right : Value}
    (same : IsSame (.object members) right) : ∃ rights, right = .object rights := by
  cases right with
  | object rights => exact ⟨rights, rfl⟩
  | _ => exact absurd same.kind_eq (by simp [kind])

/-- What is the same as an array is one. -/
theorem IsSame.exists_items {items : List Value} {right : Value}
    (same : IsSame (.array items) right) : ∃ rights, right = .array rights := by
  cases right with
  | array rights => exact ⟨rights, rfl⟩
  | _ => exact absurd same.kind_eq (by simp [kind])

/-- What is the same as something that is no object is no object. -/
theorem IsSame.members?_eq_none {left right : Value} (same : IsSame left right) :
    left.members? = none → right.members? = none :=
  same.cases id (fun _ => id) (fun _ _ => id) (fun _ => id) (fun _ => id) (fun _ _ _ => id)
    fun _ _ _ => nofun

/-- What is the same as something that is no array is no array. -/
theorem IsSame.items?_eq_none {left right : Value} (same : IsSame left right) :
    left.items? = none → right.items? = none :=
  same.cases id (fun _ => id) (fun _ _ => id) (fun _ => id) (fun _ => id) (fun _ _ _ => nofun)
    fun _ _ _ => id

/-! ## (2) Arrays and objects -/

/-- Arrays are the same exactly if their items are, one by one. -/
theorem isSame_array_iff (lefts rights : List Value) :
    IsSame (.array lefts) (.array rights) ↔ List.Forall₂ IsSame lefts rights := by
  rw [IsSame, Value.same]
  induction lefts generalizing rights with
  | nil => cases rights <;> simp [sameItems]
  | cons left lefts induction =>
      cases rights with
      | nil => simp [sameItems]
      | cons right rights =>
          rw [sameItems, Bool.and_eq_true, induction, List.forall₂_cons]
          rfl

/-- Members are the same as others exactly if each is found there with the same value. -/
theorem sameMembers_iff (lefts rights : List (String × Value)) :
    sameMembers lefts rights = true ↔
      ∀ member ∈ lefts, ∃ right, find? rights member.1 = some right ∧ IsSame member.2 right := by
  induction lefts with
  | nil => simp [sameMembers]
  | cons member rest induction =>
      obtain ⟨key, left⟩ := member
      rw [sameMembers, Bool.and_eq_true, induction, List.forall_mem_cons]
      refine and_congr_left fun _ => ?_
      cases find? rights key with
      | none => simp
      | some right => simp [IsSame]

/-- **Objects that repeat no key are the same** when the same is found under each key. -/
theorem isSame_object_iff {lefts rights : List (String × Value)} (uniqueLeft : (keys lefts).Nodup)
    (uniqueRight : (keys rights).Nodup) :
    IsSame (.object lefts) (.object rights) ↔
      ∀ key, Option.Rel IsSame (find? lefts key) (find? rights key) := by
  rw [IsSame, Value.same, Bool.and_eq_true, beq_iff_eq, sameMembers_iff]
  constructor
  · rintro ⟨sameLength, each⟩ key
    have included : keys lefts ⊆ keys rights := by
      intro name held
      obtain ⟨member, memberHeld, rfl⟩ := List.mem_map.mp held
      obtain ⟨right, found, _⟩ := each member memberHeld
      exact mem_keys_of_find? found
    -- as there are as many keys on both sides, none on the right is left over
    have sameKeys : (keys lefts).Perm (keys rights) :=
      (uniqueLeft.subperm included).perm_of_length_le (by simp [keys, sameLength])
    cases foundLeft : find? lefts key with
    | some left =>
        obtain ⟨right, found, same⟩ := each (key, left) (mem_of_find? foundLeft)
        rw [found]
        exact .some same
    | none =>
        rw [find?_eq_none_iff, sameKeys.mem_iff, ← find?_eq_none_iff] at foundLeft
        rw [foundLeft]
        exact .none
  · intro alike
    have sameKeys : (keys lefts).Perm (keys rights) := by
      refine (List.perm_ext_iff_of_nodup uniqueLeft uniqueRight).mpr fun key => ?_
      rw [← contains_iff, ← contains_iff, contains, contains]
      rcases eq_none_or_eq_some_of_rel (alike key) with
        ⟨absentLeft, absentRight⟩ | ⟨left, right, foundLeft, foundRight, _⟩
      · rw [absentLeft, absentRight]
      · rw [foundLeft, foundRight]
        rfl
    refine ⟨by simpa [keys] using sameKeys.length_eq, fun member held => ?_⟩
    have found := find?_of_mem uniqueLeft held
    rcases eq_none_or_eq_some_of_rel (alike member.1) with
      ⟨absent, _⟩ | ⟨left, right, foundLeft, foundRight, same⟩
    · rw [absent] at found
      cases found
    · rw [foundLeft] at found
      cases found
      exact ⟨right, foundRight, same⟩

/-- What holds of values that are the same holds of what is found under a key of objects that are
the same. -/
theorem IsSame.rel_find? {relation : Value → Value → Prop} {lefts rights : List (String × Value)}
    (same : IsSame (.object lefts) (.object rights)) (uniqueLeft : (keys lefts).Nodup)
    (rightDistinct : (Value.object rights).HasDistinctKeys) {key : String}
    (each : ∀ left right, find? lefts key = some left → right.HasDistinctKeys →
      IsSame left right → relation left right) :
    Option.Rel relation (find? lefts key) (find? rights key) := by
  have found := (isSame_object_iff uniqueLeft rightDistinct.nodup_keys).mp same key
  rcases eq_none_or_eq_some_of_rel found with
    ⟨absentLeft, absentRight⟩ | ⟨left, right, foundLeft, foundRight, alike⟩
  · rw [absentLeft, absentRight]
    exact .none
  · rw [foundLeft, foundRight]
    exact .some (each left right foundLeft (rightDistinct.of_find? foundRight) alike)

/-- What holds of values that are the same holds of the items at each position of arrays that are
the same. -/
theorem IsSame.corresponds {relation : Nat → Value → Value → Prop} {lefts rights : List Value}
    (same : IsSame (.array lefts) (.array rights))
    (rightDistinct : (Value.array rights).HasDistinctKeys)
    (each : ∀ position left right, lefts[position]? = some left → right.HasDistinctKeys →
      IsSame left right → relation position left right) :
    Items.Corresponds relation lefts rights := by
  have items := (isSame_array_iff lefts rights).mp same
  refine Items.corresponds_of_getElem? items.length_eq ?_
  intro position left right foundLeft foundRight
  refine each position left right foundLeft (rightDistinct.of_getElem? foundRight) ?_
  obtain ⟨withinLeft, rfl⟩ := List.getElem?_eq_some_iff.mp foundLeft
  obtain ⟨withinRight, rfl⟩ := List.getElem?_eq_some_iff.mp foundRight
  exact items.get withinLeft withinRight

end WireSchema.Value

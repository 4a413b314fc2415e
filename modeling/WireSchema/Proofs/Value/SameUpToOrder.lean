import WireSchema.Proofs.Value.ThroughJson

/-! # Values that are the same up to order

Two values that differ in nothing but the order of the members of objects, at any depth. -/

namespace WireSchema.Value

open Members

/-- **Equality up to the order of members.** -/
inductive SameUpToOrder : Value → Value → Prop
  /-- Every value is the same as itself. -/
  | refl (value : Value) : SameUpToOrder value value
  /-- Arrays are the same when they have the same items at the same positions. -/
  | array {lefts rights : List Value} (sameLength : lefts.length = rights.length)
      (each : ∀ (position : Nat) (left right : Value), lefts[position]? = some left →
        rights[position]? = some right → SameUpToOrder left right) :
      SameUpToOrder (.array lefts) (.array rights)
  /-- Objects are the same when they have the same keys, in some order, and the same values under
  them. -/
  | object {lefts rights : List (String × Value)} (sameKeys : (keys lefts).Perm (keys rights))
      (each : ∀ (key : String) (left right : Value), find? lefts key = some left →
        find? rights key = some right → SameUpToOrder left right) :
      SameUpToOrder (.object lefts) (.object rights)

/-- Objects of distinct keys are the same when the same is found under each key. -/
theorem SameUpToOrder.of_find? {lefts rights : List (String × Value)}
    (leftKeys : (keys lefts).Nodup) (rightKeys : (keys rights).Nodup)
    (each : ∀ key, (find? lefts key = none ∧ find? rights key = none) ∨
      ∃ left right, find? lefts key = some left ∧ find? rights key = some right ∧
        SameUpToOrder left right) :
    SameUpToOrder (.object lefts) (.object rights) := by
  refine .object ((List.perm_ext_iff_of_nodup leftKeys rightKeys).mpr fun key => ?_)
    fun key left right foundLeft foundRight => ?_
  · rcases each key with ⟨absentLeft, absentRight⟩ | ⟨left, right, foundLeft, foundRight, _⟩
    · have notLeft := (find?_eq_none_iff lefts key).mp absentLeft
      have notRight := (find?_eq_none_iff rights key).mp absentRight
      exact ⟨fun held => absurd held notLeft, fun held => absurd held notRight⟩
    · exact ⟨fun _ => mem_keys_of_find? foundRight, fun _ => mem_keys_of_find? foundLeft⟩
  · rcases each key with ⟨absent, _⟩ | ⟨left', right', foundLeft', foundRight', same⟩
    · rw [absent] at foundLeft
      cases foundLeft
    · rw [foundLeft'] at foundLeft
      rw [foundRight'] at foundRight
      cases foundLeft
      cases foundRight
      exact same

/-- Values that are the same up to order stay so through their documents. -/
theorem SameUpToOrder.throughJson {left right : Value} (same : SameUpToOrder left right) :
    SameUpToOrder left.throughJson right.throughJson := by
  induction same with
  | refl value => exact .refl _
  | @array lefts rights sameLength _ eachInduction =>
      rw [throughJson_array, throughJson_array]
      refine .array (by simp [sameLength]) fun position left right foundLeft foundRight => ?_
      rw [List.getElem?_map] at foundLeft foundRight
      obtain ⟨left, leftFound, rfl⟩ := Option.map_eq_some_iff.mp foundLeft
      obtain ⟨right, rightFound, rfl⟩ := Option.map_eq_some_iff.mp foundRight
      exact eachInduction position left right leftFound rightFound
  | @object lefts rights sameKeys _ eachInduction =>
      rw [throughJson_object, throughJson_object]
      refine .object ?_ fun key left right foundLeft foundRight => ?_
      · rw [keys_mapValues, keys_mapValues]
        exact sameKeys
      · rw [find?_mapValues] at foundLeft foundRight
        obtain ⟨left, leftFound, rfl⟩ := Option.map_eq_some_iff.mp foundLeft
        obtain ⟨right, rightFound, rfl⟩ := Option.map_eq_some_iff.mp foundRight
        exact eachInduction key left right leftFound rightFound

end WireSchema.Value

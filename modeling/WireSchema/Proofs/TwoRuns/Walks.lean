import WireSchema.Proofs.Items
import WireSchema.Proofs.Members.Corresponding
import WireSchema.Proofs.Renaming.KeyMap
import WireSchema.Proofs.Runs
import WireSchema.Proofs.Transcoding.Outputs

/-! # Walks side by side

A schema **goes alike** on two values when its runs on them match at every place, by a relation on
outcomes. Structs, tuples and key maps look at the parts of a value in an order that their
declarations and the undeclared members fix, so that they go alike on values whose parts go alike:
the first failure is the same on both sides (`matchBy_struct`, `matchBy_itemOutputs`,
`matchBy_carry`). -/

namespace WireSchema.Schema

open Members

/-- **A schema goes alike on two values**: wherever they stand, its runs on them match. -/
def GoesAlike (direction : Direction) (same : Value → Value → Prop) (schema : Schema)
    (left right : Value) : Prop :=
  ∀ path inputName, MatchBy same (transcodeAt direction path inputName schema left)
    (transcodeAt direction path inputName schema right)

/-- Two objects whose members correspond, and which repeat no key. -/
inductive ObjectsCorrespond (same : String → Value → Value → Prop) : Value → Value → Prop
  /-- The two objects. -/
  | objects {lefts rights : List (String × Value)} (unique : (keys lefts).Nodup)
      (corresponds : Corresponds same lefts rights) :
      ObjectsCorrespond same (.object lefts) (.object rights)

/-- Objects made of corresponding entries. -/
theorem ObjectsCorrespond.ofList {same : String → Value → Value → Prop}
    {lefts rights : List (String × Value)} (corresponds : Corresponds same lefts rights) :
    ObjectsCorrespond same (.object (Members.ofList lefts)) (.object (Members.ofList rights)) :=
  .objects (nodup_keys_ofList lefts) corresponds.ofList

variable {direction : Direction} {same : Value → Value → Prop}
  {lefts rights : List (String × Value)}

/-! ## (1) Structs -/

section Structs

variable {fields : List (Field Schema)} {index : Option (IndexSignature Schema)}

/-- Declared members are walked in the order of the fields. -/
theorem matchBy_fieldOutputs (path : String) (inputName : String → String)
    (declaredAlike : ∀ field ∈ fields, Option.Rel (GoesAlike direction same field.type)
      (find? lefts field.name) (find? rights field.name)) :
    MatchBy (Corresponds fun _ => same) (fieldOutputs direction path inputName lefts fields)
      (fieldOutputs direction path inputName rights fields) := by
  induction fields with
  | nil => exact .ok .nil
  | cons field rest induction =>
      rw [List.forall_mem_cons] at declaredAlike
      obtain ⟨here, later⟩ := declaredAlike
      rw [fieldOutputs, fieldOutputs]
      rcases eq_none_or_eq_some_of_rel here with
        ⟨absentLeft, absentRight⟩ | ⟨left, right, foundLeft, foundRight, alike⟩
      · rw [absentLeft, absentRight]
        -- a field that is absent is absent on both sides, and either passed over or missed
        by_cases mayMiss : field.isOptional = true
        · simp only [if_pos mayMiss]
          exact induction later
        · simp only [if_neg mayMiss]
          exact .error _
      · rw [foundLeft, foundRight]
        refine (alike _ id).bind fun output other related => ?_
        exact (induction later).bind fun outputs others corresponds =>
          .ok (.cons related corresponds)

/-- Undeclared members are walked in their own order. -/
theorem matchBy_otherOutputs (path : String) {declared : List String}
    (othersAlike : ∀ signature ∈ index, Corresponds (fun key left right => key ∉ declared →
      GoesAlike direction same signature.value left right) lefts rights) :
    MatchBy (Corresponds fun _ => same) (otherOutputs direction path declared index lefts)
      (otherOutputs direction path declared index rights) := by
  cases index with
  | none => exact .ok .nil
  | some signature =>
      have corresponds := othersAlike signature rfl
      clear othersAlike
      rw [otherOutputs, otherOutputs]
      induction corresponds with
      | nil => exact .ok .nil
      | @cons left right _ _ first _ induction =>
          obtain ⟨key, value⟩ := left
          obtain ⟨_, other⟩ := right
          obtain ⟨rfl, alike⟩ := first
          rw [undeclaredOutputs, undeclaredOutputs]
          by_cases known : declared.contains key = true
          · rw [if_pos known, if_pos known]
            exact induction
          · rw [if_neg known, if_neg known]
            have undeclared : key ∉ declared := fun held => known (List.contains_iff_mem.mpr held)
            refine (alike undeclared _ id).bind fun output otherOutput related => ?_
            exact induction.bind fun outputs otherOutputs corresponds =>
              .ok (.cons related corresponds)

/-- **A struct walks two objects alike** when what stands under the names of its fields goes alike,
and so do the other members where it is open. -/
theorem matchBy_struct (path : String) (inputName : String → String)
    (declaredAlike : ∀ field ∈ fields, Option.Rel (GoesAlike direction same field.type)
      (find? lefts field.name) (find? rights field.name))
    (othersAlike : ∀ signature ∈ index, Corresponds (fun key left right =>
      key ∉ fields.map Field.name → GoesAlike direction same signature.value left right)
      lefts rights) :
    MatchBy (ObjectsCorrespond fun _ => same)
      (transcodeAt direction path inputName (.struct fields index) (.object lefts))
      (transcodeAt direction path inputName (.struct fields index) (.object rights)) := by
  rw [transcodeAt_struct, transcodeAt_struct]
  -- the declared members first, as the walk takes them
  refine (matchBy_fieldOutputs path inputName declaredAlike).bind fun declared _ first => ?_
  refine (matchBy_otherOutputs path othersAlike).bind fun others _ second => ?_
  exact .ok (.ofList (first.append second))

end Structs

/-! ## (2) Key maps -/

section KeyMaps

variable {map : KeyMap} {source : Side} {alike : String → Value → Value → Prop}

/-- What is carried over corresponds under the names that are written. -/
theorem corresponds_carried {pairs : List KeyPair}
    (declaredAlike : ∀ pair ∈ pairs, Option.Rel (alike (pair.on source.opposite))
      (find? lefts (pair.on source)) (find? rights (pair.on source))) :
    Corresponds alike (KeyMap.carried source lefts pairs)
      (KeyMap.carried source rights pairs) := by
  induction pairs with
  | nil => exact .nil
  | cons pair rest induction =>
      rw [List.forall_mem_cons] at declaredAlike
      obtain ⟨here, later⟩ := declaredAlike
      rcases eq_none_or_eq_some_of_rel here with
        ⟨absentLeft, absentRight⟩ | ⟨left, right, foundLeft, foundRight, related⟩
      · rw [KeyMap.carried_cons_of_absent absentLeft, KeyMap.carried_cons_of_absent absentRight]
        exact induction later
      · rw [KeyMap.carried_cons_of_found foundLeft, KeyMap.carried_cons_of_found foundRight]
        exact .cons related (induction later)

/-- The same field is missing on both sides. -/
theorem missing?_congr {pairs : List KeyPair}
    (declaredAlike : ∀ pair ∈ pairs, Option.Rel (alike (pair.on source.opposite))
      (find? lefts (pair.on source)) (find? rights (pair.on source))) :
    KeyMap.missing? source lefts pairs = KeyMap.missing? source rights pairs := by
  refine List.find?_congr fun pair held => ?_
  rcases eq_none_or_eq_some_of_rel (declaredAlike pair held) with
    ⟨absentLeft, absentRight⟩ | ⟨left, right, foundLeft, foundRight, _⟩
  · rw [contains, contains, absentLeft, absentRight]
  · rw [contains, contains, foundLeft, foundRight]
    rfl

/-- **A key map carries two objects over alike**: what it reads under the names of its fields has to
be related under the names that it writes, and so has what it keeps. -/
theorem matchBy_carry
    (declaredAlike : ∀ pair ∈ map.pairs, Option.Rel (alike (pair.on source.opposite))
      (find? lefts (pair.on source)) (find? rights (pair.on source)))
    (keptAlike : map.isOpen = true → Corresponds
      (fun key left right => map.declares key source.opposite = false → alike key left right)
      (map.kept source lefts) (map.kept source rights)) :
    MatchBy (ObjectsCorrespond alike) (map.carry source (.object lefts))
      (map.carry source (.object rights)) := by
  have carried := corresponds_carried declaredAlike
  rw [KeyMap.carry_object, KeyMap.carry_object, missing?_congr declaredAlike]
  cases KeyMap.missing? source rights map.pairs with
  | some pair => exact .error _
  | none =>
      cases isOpen : map.isOpen with
      | false => exact .ok (.ofList carried)
      | true =>
          have kept := keptAlike isOpen
          -- a collision is looked for among the kept keys, which are the same on both sides
          simp only [if_true, KeyMap.collision?_eq_find?_kept, ← kept.keys_eq]
          cases collision : (keys (map.kept source lefts)).find?
              (map.declares · source.opposite) with
          | some key => exact .error _
          | none =>
              refine .ok (.ofList (carried.append (kept.imp fun key held left right related => ?_)))
              exact related (Bool.eq_false_iff.mpr (List.find?_eq_none.mp collision key held))

end KeyMaps

/-! ## (3) Tuples -/

/-- **Items are walked alike** when those at each position are. -/
theorem matchBy_itemOutputs (path : String) {slot : Nat → Schema} (index : Nat)
    {lefts rights : List Value}
    (alike : Items.Corresponds (fun position => GoesAlike direction same (slot position)) lefts
      rights) :
    MatchBy (List.Forall₂ same) (itemOutputs direction path slot index lefts)
      (itemOutputs direction path slot index rights) := by
  induction lefts generalizing slot index rights with
  | nil =>
      cases alike with
      | nil => exact .ok .nil
  | cons left lefts induction =>
      cases alike with
      | cons first later =>
          rw [itemOutputs, itemOutputs]
          refine (first _ id).bind fun output other related => ?_
          exact (induction (index + 1) later).bind fun outputs others each =>
            .ok (.cons related each)

end WireSchema.Schema

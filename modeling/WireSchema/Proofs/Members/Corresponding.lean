import Mathlib.Data.List.Forall2
import WireSchema.Proofs.Members.Insertion

/-! # Corresponding members

Two lists of members **correspond** when they bear the same names in the same order and what stands
under a name on the left is related to what stands under it on the right; which relation this is may
depend on the name. Writing corresponding entries keeps members corresponding
(`Corresponds.ofList`). -/

namespace WireSchema.Members

variable {α β : Type}

/-- Where what may be found is related, it is found on both sides or on none. -/
theorem eq_none_or_eq_some_of_rel {same : α → β → Prop} {left? : Option α} {right? : Option β}
    (alike : Option.Rel same left? right?) :
    (left? = none ∧ right? = none) ∨
      ∃ left right, left? = some left ∧ right? = some right ∧ same left right := by
  cases alike with
  | some related => exact Or.inr ⟨_, _, rfl, rfl, related⟩
  | none => exact Or.inl ⟨rfl, rfl⟩

/-- What becomes of what may be found is related when it is so wherever something is found. -/
theorem rel_bind {γ δ : Type} {same : α → β → Prop} {later : γ → δ → Prop} {left? : Option α}
    {right? : Option β} {leftNext : α → Option γ} {rightNext : β → Option δ}
    (first : Option.Rel same left? right?)
    (second : ∀ left right, same left right → Option.Rel later (leftNext left) (rightNext right)) :
    Option.Rel later (left?.bind leftNext) (right?.bind rightNext) := by
  cases first with
  | some related => exact second _ _ related
  | none => exact .none

/-- Of two related options, either both or neither hold something. -/
theorem isSome_eq_of_rel {same : α → β → Prop} {left? : Option α} {right? : Option β}
    (alike : Option.Rel same left? right?) : left?.isSome = right?.isSome := by
  cases alike <;> rfl

/-- **Members correspond**, name by name. -/
def Corresponds (same : String → α → β → Prop) (lefts : List (String × α))
    (rights : List (String × β)) : Prop :=
  List.Forall₂ (fun left right => left.1 = right.1 ∧ same left.1 left.2 right.2) lefts rights

namespace Corresponds

variable {same other : String → α → β → Prop} {lefts moreLefts : List (String × α)}
  {rights moreRights : List (String × β)}

/-- No members correspond to no members. -/
theorem nil : Corresponds same ([] : List (String × α)) ([] : List (String × β)) := List.Forall₂.nil

/-- A related entry under the same name goes in front of corresponding members. -/
theorem cons {name : String} {left : α} {right : β} (first : same name left right)
    (rest : Corresponds same lefts rights) :
    Corresponds same ((name, left) :: lefts) ((name, right) :: rights) :=
  List.Forall₂.cons ⟨rfl, first⟩ rest

/-- Corresponding members behind corresponding members correspond. -/
theorem append (front : Corresponds same lefts rights)
    (back : Corresponds same moreLefts moreRights) :
    Corresponds same (lefts ++ moreLefts) (rights ++ moreRights) := List.rel_append front back

/-- Corresponding members with equal entries are equal. -/
theorem eq {lefts rights : List (String × α)}
    (corresponds : Corresponds (fun _ => Eq) lefts rights) : lefts = rights := by
  rw [← List.forall₂_eq_eq_eq]
  exact corresponds.imp fun left right pair => Prod.ext pair.1 pair.2

/-- Corresponding members have the same keys in the same order. -/
theorem keys_eq (corresponds : Corresponds same lefts rights) : keys lefts = keys rights := by
  induction corresponds with
  | nil => rfl
  | cons first _ induction => rw [keys_cons, keys_cons, first.1, induction]

/-- What corresponds by one relation corresponds by any that follows from it at the names that are
there. -/
theorem imp (weaker : ∀ name ∈ keys lefts, ∀ left right,
      same name left right → other name left right)
    (corresponds : Corresponds same lefts rights) : Corresponds other lefts rights := by
  induction corresponds with
  | nil => exact List.Forall₂.nil
  | cons first _ induction =>
      rw [keys_cons, List.forall_mem_cons] at weaker
      exact List.Forall₂.cons ⟨first.1, weaker.1 _ _ first.2⟩ (induction weaker.2)

/-- What is found under a name is related, or nothing is found on both sides. -/
theorem find? (corresponds : Corresponds same lefts rights) (name : String) :
    Option.Rel (same name) (Members.find? lefts name) (Members.find? rights name) := by
  induction corresponds with
  | nil => exact .none
  | @cons left right _ _ first _ induction =>
      obtain ⟨key, entry⟩ := left
      obtain ⟨_, other⟩ := right
      obtain ⟨rfl, related⟩ := first
      rw [find?_cons, find?_cons]
      split
      · next here => exact .some (here ▸ related)
      · exact induction

/-- Corresponding members are kept or dropped together when their names decide. -/
theorem filter (keeps : String → Bool) (corresponds : Corresponds same lefts rights) :
    Corresponds same (lefts.filter fun member => keeps member.1)
      (rights.filter fun member => keeps member.1) := by
  refine List.rel_filter (fun left right pair => ?_) corresponds
  show keeps left.1 = true ↔ keeps right.1 = true
  rw [pair.1]

/-- Inserting related entries under one name keeps members corresponding. -/
theorem insert (corresponds : Corresponds same lefts rights) {name : String} {left : α} {right : β}
    (related : same name left right) :
    Corresponds same (Members.insert lefts name left) (Members.insert rights name right) := by
  induction corresponds with
  | nil => exact .cons related .nil
  | @cons first second _ _ pair rest induction =>
      obtain ⟨key, entry⟩ := first
      obtain ⟨_, other⟩ := second
      obtain ⟨rfl, entries⟩ := pair
      rw [Members.insert, Members.insert]
      split
      · next here => exact .cons (here ▸ related) rest
      · exact .cons entries induction

/-- **Members made of corresponding entries correspond.** -/
theorem ofList (corresponds : Corresponds same lefts rights) :
    Corresponds same (Members.ofList lefts) (Members.ofList rights) := by
  refine List.rel_foldl (fun _ _ before left right pair => ?_) Corresponds.nil corresponds
  obtain ⟨key, entry⟩ := left
  obtain ⟨_, other⟩ := right
  obtain ⟨rfl, related⟩ := pair
  exact before.insert related

/-- Members correspond to those with changed entries when each entry is related to what becomes of
it. -/
theorem mapValues {change : String → α → β}
    (each : ∀ member ∈ lefts, same member.1 member.2 (change member.1 member.2)) :
    Corresponds same lefts (Members.mapValues change lefts) :=
  List.forall₂_map_right_iff.mpr (List.forall₂_same.mpr fun member held => ⟨rfl, each member held⟩)

end Corresponds

end WireSchema.Members

import Mathlib.Data.List.Forall2
import Mathlib.Logic.Basic

/-! # Translating items

What tuples do to the items of an array without regard to errors: each item by its own position.
The outcome has the length of the items and is told position by position. Two lists of items
**correspond** when they have one length and related items at each position. -/

namespace WireSchema.Items

variable {α β γ : Type}

/-- **The translation** of items, where `part` tells what becomes of the item at each position. -/
def translate? : (Nat → α → Option β) → List α → Option (List β)
  | _, [] => some []
  | part, item :: items => do
      let output ← part 0 item
      let outputs ← translate? (fun offset => part (offset + 1)) items
      return output :: outputs

/-- A list is translated exactly if its first item and the rest are. -/
theorem translate?_cons_eq_some_iff {part : Nat → α → Option β} {item : α} {items : List α}
    {outputs : List β} :
    translate? part (item :: items) = some outputs ↔
      ∃ output others, part 0 item = some output ∧
        translate? (fun offset => part (offset + 1)) items = some others ∧
        output :: others = outputs := by
  simp [translate?, Option.bind_eq_some_iff]

/-- Items translate exactly when each of them does at its position. -/
theorem translate?_isSome_iff (part : Nat → α → Option β) (items : List α) :
    (translate? part items).isSome ↔
      ∀ index item, items[index]? = some item → (part index item).isSome := by
  -- positions shift by one behind the first item, so the part has to be general
  induction items generalizing part with
  | nil => simp [translate?]
  | cons item items induction =>
      have split : (translate? part (item :: items)).isSome ↔
          (part 0 item).isSome ∧ (translate? (fun offset => part (offset + 1)) items).isSome := by
        rw [translate?]
        cases part 0 item <;>
          cases translate? (fun offset => part (offset + 1)) items <;> simp
      rw [split, induction]
      constructor
      · rintro ⟨first, later⟩ (_ | index) other found
        · cases found
          exact first
        · exact later index other found
      · intro each
        exact ⟨each 0 item rfl, fun index other found => each (index + 1) other found⟩

/-- Translating keeps the number of items. -/
theorem length_translate? {part : Nat → α → Option β} {items : List α} {outputs : List β}
    (translated : translate? part items = some outputs) : outputs.length = items.length := by
  induction items generalizing part outputs with
  | nil =>
      cases translated
      rfl
  | cons item items induction =>
      rw [translate?_cons_eq_some_iff] at translated
      obtain ⟨output, others, _, later, rfl⟩ := translated
      simp [induction later]

/-- At each position stands what became of the item there. -/
theorem getElem?_translate? {part : Nat → α → Option β} {items : List α} {outputs : List β}
    (translated : translate? part items = some outputs) (index : Nat) :
    outputs[index]? = items[index]?.bind (part index) := by
  induction items generalizing part outputs index with
  | nil =>
      cases translated
      rfl
  | cons item items induction =>
      rw [translate?_cons_eq_some_iff] at translated
      obtain ⟨output, others, first, later, rfl⟩ := translated
      cases index with
      | zero => simp [first]
      | succ index => simpa using induction later index

/-- **Translations compose**: what one has put out is translated by the next one as by both parts at
once. -/
theorem translate?_translate? {early : Nat → α → Option β} {late : Nat → β → Option γ}
    {items : List α} {middle : List β} (translated : translate? early items = some middle) :
    translate? late middle =
      translate? (fun index item => (early index item).bind (late index)) items := by
  induction items generalizing early late middle with
  | nil =>
      cases translated
      rfl
  | cons item items induction =>
      rw [translate?_cons_eq_some_iff] at translated
      obtain ⟨output, others, first, later, rfl⟩ := translated
      rw [translate?, translate?, induction later, first]
      rfl

/-- Translating items that have been changed before is translating them by both at once. -/
theorem translate?_mapIdx (change : Nat → α → β) (part : Nat → β → Option γ) (items : List α) :
    translate? part (items.mapIdx change) =
      translate? (fun index item => part index (change index item)) items := by
  induction items generalizing change part with
  | nil => rfl
  | cons item items induction => rw [List.mapIdx_cons, translate?, translate?, induction]

/-! ## Items side by side -/

/-- **Items correspond** when there are as many on both sides and those at each position are
related; which relation this is may depend on the position. -/
inductive Corresponds : (Nat → α → β → Prop) → List α → List β → Prop
  /-- No items on both sides. -/
  | nil {same : Nat → α → β → Prop} : Corresponds same [] []
  /-- A first item on both sides, and items behind it. -/
  | cons {same : Nat → α → β → Prop} {left : α} {right : β} {lefts : List α} {rights : List β}
      (first : same 0 left right)
      (later : Corresponds (fun offset => same (offset + 1)) lefts rights) :
      Corresponds same (left :: lefts) (right :: rights)

/-- Corresponding lists are equally long. -/
theorem Corresponds.length_eq {same : Nat → α → β → Prop} {lefts : List α} {rights : List β}
    (corresponds : Corresponds same lefts rights) : lefts.length = rights.length := by
  induction corresponds with
  | nil => rfl
  | cons _ _ induction => rw [List.length_cons, List.length_cons, induction]

/-- Items of one number correspond when those at each position are related. -/
theorem corresponds_of_getElem? {same : Nat → α → β → Prop} {lefts : List α} {rights : List β}
    (sameLength : lefts.length = rights.length)
    (each : ∀ position left right, lefts[position]? = some left → rights[position]? = some right →
      same position left right) : Corresponds same lefts rights := by
  induction lefts generalizing same rights with
  | nil =>
      rw [List.eq_nil_of_length_eq_zero sameLength.symm]
      exact .nil
  | cons left lefts induction =>
      cases rights with
      | nil => cases sameLength
      | cons right rights =>
          refine .cons (each 0 left right rfl rfl) (induction (by simpa using sameLength) ?_)
          exact fun position => each (position + 1)

/-- Items that are related one by one are related in any way that follows for them. -/
theorem forall₂_imp_of_mem {early late : α → β → Prop} {lefts : List α} {rights : List β}
    (related : List.Forall₂ early lefts rights)
    (imp : ∀ left ∈ lefts, ∀ right ∈ rights, early left right → late left right) :
    List.Forall₂ late lefts rights := by
  -- pairs of the zipped lists are known to stand in them
  rw [List.forall₂_iff_zip] at related ⊢
  refine ⟨related.1, fun held => ?_⟩
  obtain ⟨leftHeld, rightHeld⟩ := List.of_mem_zip held
  exact imp _ leftHeld _ rightHeld (related.2 held)

/-- Of items that are related one by one, each one on the right is related to one on the left. -/
theorem exists_of_mem_forall₂ {same : α → β → Prop} {lefts : List α} {rights : List β}
    (related : List.Forall₂ same lefts rights) {right : β} (held : right ∈ rights) :
    ∃ left ∈ lefts, same left right := by
  induction related with
  | nil => cases held
  | cons first _ induction =>
      cases held with
      | head => exact ⟨_, List.mem_cons_self, first⟩
      | tail _ held =>
          obtain ⟨left, leftHeld, isSame⟩ := induction held
          exact ⟨left, List.mem_cons_of_mem _ leftHeld, isSame⟩

end WireSchema.Items

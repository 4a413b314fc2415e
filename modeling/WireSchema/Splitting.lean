/-! # Lists cut at separators

The parts of a list between its separators, in order: one more than there are separators, so that
parts may be empty. -/

namespace WireSchema

variable {α : Type}

/-- Put an element in front of the first part. -/
def consFirst (element : α) : List (List α) → List (List α)
  | [] => [[element]]
  | part :: parts => (element :: part) :: parts

/-- **The parts of a list** between its separators. -/
def splitWhere (isSeparator : α → Bool) : List α → List (List α)
  | [] => [[]]
  | element :: rest =>
      if isSeparator element then [] :: splitWhere isSeparator rest
      else consFirst element (splitWhere isSeparator rest)

/-- Putting an element at the front of the first part keeps the number of parts. -/
@[simp] theorem length_consFirst (element : α) {parts : List (List α)} (some : parts ≠ []) :
    (consFirst element parts).length = parts.length := by
  cases parts with
  | nil => exact absurd rfl some
  | cons part parts => rfl

/-- There is always a part. -/
@[simp] theorem splitWhere_ne_nil (isSeparator : α → Bool) (list : List α) :
    splitWhere isSeparator list ≠ [] := by
  cases list with
  | nil => simp [splitWhere]
  | cons element rest =>
      by_cases separates : isSeparator element
      · simp [splitWhere, separates]
      · cases parts : splitWhere isSeparator rest <;> simp [splitWhere, separates, parts, consFirst]

/-- What stands in front of the first separator is the first part. -/
theorem splitWhere_append_cons {isSeparator : α → Bool} {part : List α}
    (free : ∀ element ∈ part, isSeparator element = false) {separator : α}
    (separates : isSeparator separator = true) (rest : List α) :
    splitWhere isSeparator (part ++ separator :: rest) = part :: splitWhere isSeparator rest := by
  induction part with
  | nil => simp [splitWhere, separates]
  | cons element part induction =>
      have first := free element List.mem_cons_self
      have later := induction fun other held => free other (List.mem_cons_of_mem _ held)
      simp [splitWhere, first, later, consFirst]

/-- A list without separators is its only part. -/
theorem splitWhere_of_free {isSeparator : α → Bool} {part : List α}
    (free : ∀ element ∈ part, isSeparator element = false) :
    splitWhere isSeparator part = [part] := by
  induction part with
  | nil => rfl
  | cons element part induction =>
      have first := free element List.mem_cons_self
      have later := induction fun other held => free other (List.mem_cons_of_mem _ held)
      simp [splitWhere, first, later, consFirst]

end WireSchema

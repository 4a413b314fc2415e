import Mathlib.Tactic.SplitIfs
import WireSchema.Json.Printer
import WireSchema.Proofs.Decimal
import WireSchema.Proofs.Json.Induction
import WireSchema.Text.Blank

/-! # What printed documents look like

The compact text of a document holds no control characters, so that it stands on one line, and it
starts with a character that is not blank, so that the line is not blank (`isOf_compact`,
`exists_head_compact`). -/

namespace WireSchema

/-! ## (1) Characters -/

namespace Text

/-- **Ink**: an ASCII character that leaves a mark on paper. -/
def IsInk (c : Char) : Prop := 0x20 < c.toNat ∧ c.toNat < 0x7F

/-- A character that is none of the **control characters** in front of the space. -/
def IsNoControl (c : Char) : Prop := 0x20 ≤ c.toNat

instance : DecidablePred IsInk := fun _ => inferInstanceAs (Decidable (_ ∧ _))

instance : DecidablePred IsNoControl := fun _ => inferInstanceAs (Decidable (_ ≤ _))

/-- No character of a number or a word is blank. -/
theorem isBlank_of_isInk {c : Char} (ink : IsInk c) : isBlank c = false := by
  obtain ⟨above, below⟩ := ink
  simp only [isBlank, Bool.or_eq_false_iff, Bool.and_eq_false_iff, decide_eq_false_iff_not,
    beq_eq_false_iff_ne]
  omega

/-- Digits are ink. -/
theorem isInk_of_isDigit {c : Char} (digit : c.isDigit = true) : IsInk c := by
  simp only [Char.isDigit, Bool.and_eq_true, decide_eq_true_eq] at digit
  have lower : 48 ≤ c.toNat := digit.1
  have upper : c.toNat ≤ 57 := digit.2
  exact ⟨by omega, by omega⟩

/-- A text **of characters of a kind**. -/
def IsOf (kind : Char → Prop) (text : List Char) : Prop := ∀ c ∈ text, kind c

section IsOf

variable {kind : Char → Prop} {front rest : List Char}

instance [DecidablePred kind] : DecidablePred (IsOf kind) := List.decidableBAll kind

/-- The empty text is of every kind. -/
theorem isOf_nil : IsOf kind [] := nofun

/-- A character in front of a text of its kind makes a text of that kind. -/
theorem IsOf.cons {c : Char} (first : kind c) (others : IsOf kind rest) : IsOf kind (c :: rest) :=
  List.forall_mem_cons.mpr ⟨first, others⟩

/-- Two texts of one kind make a text of that kind. -/
theorem IsOf.append (before : IsOf kind front) (behind : IsOf kind rest) :
    IsOf kind (front ++ rest) :=
  List.forall_mem_append.mpr ⟨before, behind⟩

end IsOf

/-- Ink holds no control characters. -/
theorem IsOf.isNoControl {text : List Char} (ink : IsOf IsInk text) : IsOf IsNoControl text :=
  fun c held => Nat.le_of_lt (ink c held).1

end Text

namespace Json

open Text (IsInk IsNoControl IsOf isOf_nil)

/-! ## (2) Numbers -/

/-- The digits of a number are ink. -/
theorem isOf_digits (n : Nat) : IsOf IsInk (Decimal.digits n) :=
  fun _ held => Text.isInk_of_isDigit (Decimal.isDigit_of_mem_digits held)

/-- Zeros are ink. -/
theorem isOf_zeros (count : Nat) : IsOf IsInk (List.replicate count '0') := by
  intro c held
  rw [List.eq_of_mem_replicate held]
  decide

/-- Digits are laid out with further zeros, with a point and with an exponent. -/
theorem isOf_layout {digits : List Char} (ink : IsOf IsInk digits) (exponent : Int) :
    IsOf IsInk (Binary64.layout digits exponent) := by
  have part : ∀ {text}, text ⊆ digits → IsOf IsInk text := fun inside c held => ink c (inside held)
  simp only [Binary64.layout]
  split
  · exact .append (.append ink (isOf_zeros _)) (by decide)
  · split
    · exact .append (part (List.take_subset _ _)) (.cons (by decide) (part (List.drop_subset _ _)))
    · split
      · exact .append (.cons (by decide) (.cons (by decide) (isOf_zeros _))) ink
      · refine .append ?_ (.cons (by decide) (.cons ?_ (isOf_digits _)))
        · -- the mantissa has a point behind its first digit, if there is a second one
          split
          · obtain ⟨first, rest⟩ := List.forall_mem_cons.mp ink
            exact .cons first (.cons (by decide) rest)
          · exact ink
        · split <;> decide

/-- A double is laid out by at least one character. -/
theorem layout_ne_nil (digits : List Char) (exponent : Int) :
    Binary64.layout digits exponent ≠ [] := by
  simp only [Binary64.layout]
  split
  · simp
  · split
    · simp
    · split <;> simp

/-- The digits that are left without zeros at the end are digits. -/
theorem isOf_significantDigits (decimal : Binary64.DecimalNumber) :
    IsOf IsInk (Binary64.significantDigits decimal).1 := by
  intro c held
  have kept := (List.dropWhile_sublist _).mem (List.mem_reverse.mp held)
  exact isOf_digits _ c (List.mem_reverse.mp kept)

/-- The text of a double is ink. -/
theorem isOf_double (number : Binary64) : IsOf IsInk number.text := by
  have magnitude : IsOf IsInk (if number.rank = 0 then ['0', '.', '0'] else
      Binary64.layout (Binary64.significantDigits (Binary64.shortest number.rank)).1
        (Binary64.significantDigits (Binary64.shortest number.rank)).2) := by
    split
    · decide
    · exact isOf_layout (isOf_significantDigits _) _
  rw [Binary64.text]
  split
  · exact .cons (by decide) magnitude
  · exact magnitude

/-- The text of a double is not empty. -/
theorem double_ne_nil (number : Binary64) : number.text ≠ [] := by
  rw [Binary64.text]
  split
  · simp
  · split
    · simp
    · exact layout_ne_nil _ _

/-- **Numbers are written in ink.** -/
theorem isOf_number (number : Number) : IsOf IsInk number.text := by
  cases number with
  | integer value =>
      cases value with
      | ofNat n => exact isOf_digits n
      | negSucc n => exact .cons (by decide) (isOf_digits (n + 1))
  | double value => exact isOf_double value

/-- The text of a number is not empty. -/
theorem number_ne_nil (number : Number) : number.text ≠ [] := by
  cases number with
  | integer value =>
      cases value with
      | ofNat n => exact Nat.toDigits_ne_nil
      | negSucc n => exact List.cons_ne_nil _ _
  | double value => exact double_ne_nil value

/-! ## (3) Texts -/

/-- Hexadecimal digits are no control characters. -/
theorem isNoControl_hexDigit : ∀ n < 16, IsNoControl (hexDigit n) := by decide

/-- A control character is written by characters that are none. -/
theorem isOf_escapeChar (c : Char) : IsOf IsNoControl (escapeChar c) := by
  rw [escapeChar]
  split_ifs with _ _ _ _ _ _ _ isControl
  any_goals decide
  · -- the long form, whose first digits are zeros
    have high := isNoControl_hexDigit (c.toNat / 16) (by omega)
    have low := isNoControl_hexDigit (c.toNat % 16) (by omega)
    have front : IsOf IsNoControl ['\\', 'u', '0', '0'] := by decide
    exact front.append (.cons high (.cons low isOf_nil))
  · exact .cons (Nat.le_of_not_lt isControl) isOf_nil

/-- A quoted string holds no control character, since those are escaped. -/
theorem isOf_quoted (text : String) : IsOf IsNoControl (quoted text) := by
  have escaped : IsOf IsNoControl (text.toList.flatMap escapeChar) := by
    intro c held
    obtain ⟨original, _, written⟩ := List.mem_flatMap.mp held
    exact isOf_escapeChar original c written
  exact .append (.cons (by decide) escaped) (by decide)

/-! ## (4) Documents -/

/-- Items without control characters are put together without one. -/
theorem isOf_compactItems {items : List Json}
    (each : ∀ item ∈ items, IsOf IsNoControl item.compact) :
    IsOf IsNoControl (compactItems items) := by
  induction items with
  | nil => decide
  | cons item rest induction =>
      obtain ⟨first, others⟩ := List.forall_mem_cons.mp each
      rw [compactItems]
      exact .append (.cons (by decide) first) (induction others)

/-- Members without control characters are put together without one. -/
theorem isOf_compactMembers {members : List (String × Json)}
    (each : ∀ member ∈ members, IsOf IsNoControl member.2.compact) :
    IsOf IsNoControl (compactMembers members) := by
  induction members with
  | nil => decide
  | cons member rest induction =>
      obtain ⟨first, others⟩ := List.forall_mem_cons.mp each
      rw [compactMembers]
      exact .append (.append (.cons (by decide) (isOf_quoted member.1))
        (.cons (by decide) first)) (induction others)

/-- **A document stands on one line**: no character of its compact text is a control character. -/
theorem isOf_compact (json : Json) : IsOf IsNoControl json.compact := by
  induction json using Json.induction with
  | null => decide
  | bool value => cases value <;> decide
  | number value => exact (isOf_number value).isNoControl
  | string value => exact isOf_quoted value
  | array items itemsInduction =>
      cases items with
      | nil => decide
      | cons first rest =>
          obtain ⟨firstFits, restFit⟩ := List.forall_mem_cons.mp itemsInduction
          rw [compact]
          exact .append (.cons (by decide) firstFits) (isOf_compactItems restFit)
  | object members membersInduction =>
      cases members with
      | nil => decide
      | cons first rest =>
          obtain ⟨firstFits, restFit⟩ := List.forall_mem_cons.mp membersInduction
          rw [compact]
          exact .append (.append (.cons (by decide) (isOf_quoted first.1))
            (.cons (by decide) firstFits)) (isOf_compactMembers restFit)

/-- **The line of a document is not blank**: its compact text starts with ink. -/
theorem exists_head_compact (json : Json) :
    ∃ first rest, json.compact = first :: rest ∧ IsInk first := by
  cases json with
  | null => exact ⟨_, _, rfl, by decide⟩
  | bool value => cases value <;> exact ⟨_, _, rfl, by decide⟩
  | number value =>
      obtain ⟨first, rest, text⟩ := List.exists_cons_of_ne_nil (number_ne_nil value)
      have ink := isOf_number value
      rw [text] at ink
      exact ⟨first, rest, text, ink first List.mem_cons_self⟩
  | string value => exact ⟨_, _, rfl, by decide⟩
  | array items =>
      cases items with
      | nil => exact ⟨_, _, rfl, by decide⟩
      | cons first rest => exact ⟨'[', _, by rw [compact, List.cons_append], by decide⟩
  | object members =>
      cases members with
      | nil => exact ⟨_, _, rfl, by decide⟩
      | cons first rest => exact ⟨'{', _, by rw [compact]; rfl, by decide⟩

end Json

end WireSchema

/-! # Globs

A glob is a path with wildcards. Its parts are looked up one after the other: a part of two stars
goes down through any number of directories, every other part is matched against a name. -/

namespace WireSchema.Glob

/-- **A token** of a part: what it allows in a name. -/
inductive Token where
  /-- This character. -/
  | char (value : Char)
  /-- Any one character. -/
  | any
  /-- Any characters. -/
  | many
  /-- One character from one of the ranges. -/
  | within (ranges : List (Char × Char))
  /-- One character from none of the ranges. -/
  | outside (ranges : List (Char × Char))
  deriving DecidableEq

namespace Token

/-- Whether a character is in a range, ends included. -/
def isInRange (c : Char) (range : Char × Char) : Bool := range.1 ≤ c && c ≤ range.2

/-- Whether a token allows a character. -/
def allows : Token → Char → Bool
  | .char value, c => c == value
  | .any, _ | .many, _ => true
  | .within ranges, c => ranges.any (isInRange c)
  | .outside ranges, c => !ranges.any (isInRange c)

/-- Whether a condition holds for what is left of a text behind some of its characters. -/
def someSuffix (condition : List Char → Bool) : List Char → Bool
  | [] => condition []
  | c :: rest => condition (c :: rest) || someSuffix condition rest

/-- Whether tokens match the whole of a name. -/
def matchAll : List Token → List Char → Bool
  | [], name => name.isEmpty
  | .many :: tokens, name => someSuffix (matchAll tokens) name
  | _ :: _, [] => false
  | token :: tokens, c :: name => token.allows c && matchAll tokens name

/-- The only name that tokens match, if they are plain characters. -/
def literal? : List Token → Option (List Char)
  | [] => some []
  | .char c :: tokens => (literal? tokens).map (c :: ·)
  | _ => none

/-- A condition holds for some suffix exactly when the text is cut somewhere before one. -/
theorem someSuffix_iff {condition : List Char → Bool} {text : List Char} :
    someSuffix condition text ↔ ∃ taken rest, text = taken ++ rest ∧ condition rest := by
  induction text with
  | nil => simp [someSuffix, and_assoc]
  | cons c text induction =>
      simp only [someSuffix, Bool.or_eq_true, induction]
      constructor
      · rintro (holds | ⟨taken, rest, rfl, holds⟩)
        · exact ⟨[], c :: text, rfl, holds⟩
        · exact ⟨c :: taken, rest, rfl, holds⟩
      · rintro ⟨taken, rest, same, holds⟩
        cases taken with
        | nil => exact .inl (by simp_all)
        | cons first taken =>
            simp only [List.cons_append, List.cons.injEq] at same
            exact .inr ⟨taken, rest, same.2, holds⟩

/-- Plain characters match the one name that they spell. -/
theorem matchAll_of_literal {tokens : List Token} {name : List Char}
    (spelt : literal? tokens = some name) (other : List Char) :
    matchAll tokens other ↔ other = name := by
  induction tokens generalizing name other with
  | nil => simp_all [literal?, matchAll]
  | cons token tokens induction =>
      cases token <;> simp [literal?] at spelt
      obtain ⟨rest, restSpelt, rfl⟩ := spelt
      cases other with
      | nil => simp [matchAll]
      | cons c other => simp [matchAll, allows, induction restSpelt]

end Token

/-- A part of a glob. -/
inductive Part where
  /-- Two stars: any directories below. -/
  | below
  /-- An entry with a matching name. -/
  | name (tokens : List Token)
  deriving DecidableEq

end Glob

/-- **A glob**. -/
structure Glob where
  /-- Whether it starts at the root. -/
  isAbsolute : Bool
  /-- Its parts, in order. -/
  parts : List Glob.Part
  /-- Whether it ends with a slash, so that only directories match. -/
  needsDirectory : Bool
  deriving DecidableEq

end WireSchema

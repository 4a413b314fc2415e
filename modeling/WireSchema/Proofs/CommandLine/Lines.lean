import WireSchema.CommandLine.Execution
import WireSchema.Proofs.CommandLine.InputDocuments
import WireSchema.Proofs.Json.Printing

/-! # Documents on lines

Documents that are put on lines are found on lines again: there is one line for each of them, in
their order, and none of the lines is blank (`lines_resultText`, `documentTexts_resultText`).
Documents that are not put on lines are the items of one array (`isArray_resultText`). -/

namespace WireSchema

/-! ## (1) Parts -/

/-- Parts that are joined by separators and hold none are the parts of the whole. -/
theorem splitWhere_intercalate {α : Type} {isSeparator : α → Bool} {separator : α}
    (separates : isSeparator separator = true) {parts : List (List α)} (some : parts ≠ [])
    (free : ∀ part ∈ parts, ∀ element ∈ part, isSeparator element = false) :
    splitWhere isSeparator ([separator].intercalate parts) = parts := by
  induction parts with
  | nil => exact absurd rfl some
  | cons part rest induction =>
      obtain ⟨partFree, restFree⟩ := List.forall_mem_cons.mp free
      cases rest with
      | nil => rw [List.intercalate_singleton, splitWhere_of_free partFree]
      | cons next rest =>
          rw [List.intercalate_cons_cons, List.append_assoc, List.singleton_append,
            splitWhere_append_cons partFree separates, induction (List.cons_ne_nil _ _) restFree]

namespace CommandLine

open Text (IsNoControl IsOf)

/-! ## (2) Lines -/

/-- A line without control characters ends with no carriage return. -/
theorem withoutReturn_of_isOf {line : List Char} (noControl : IsOf IsNoControl line) :
    withoutReturn line = line := by
  refine if_neg fun last => ?_
  exact absurd (noControl '\r' (List.mem_of_getLast? last)) (by decide)

/-- **Lines are found where they have been joined**, if none is empty and none holds control
characters. -/
theorem lines_intercalate {texts : List (List Char)}
    (proper : ∀ text ∈ texts, text ≠ [] ∧ IsOf IsNoControl text) :
    lines (['\n'].intercalate texts) = texts := by
  cases texts with
  | nil => rfl
  | cons first rest =>
      have split : splitWhere (· == '\n') (['\n'].intercalate (first :: rest)) = first :: rest := by
        refine splitWhere_intercalate rfl (List.cons_ne_nil _ _) fun text held c inside => ?_
        rw [beq_eq_false_iff_ne]
        rintro rfl
        exact absurd ((proper text held).2 _ inside) (by decide)
      have kept : (first :: rest).dropLast.map withoutReturn = (first :: rest).dropLast := by
        refine (List.map_congr_left fun text held => ?_).trans (List.map_id _)
        exact withoutReturn_of_isOf (proper text (List.dropLast_subset _ held)).2
      have some : first :: rest ≠ [] := List.cons_ne_nil _ _
      have last : ((first :: rest).getLast some).isEmpty = false := by
        rw [List.isEmpty_eq_false_iff]
        exact (proper _ (List.getLast_mem some)).1
      rw [lines, split, kept, List.getLast?_eq_some_getLast some, Option.getD_some, last]
      exact List.dropLast_concat_getLast some

/-! ## (3) Documents -/

/-- The compact texts of documents are joined by line feeds. -/
theorem toList_resultText (values : List Json) :
    (resultText true values).toList = ['\n'].intercalate (values.map Json.compact) := by
  rw [resultText, if_pos rfl, String.toList_intercalate, List.map_map]
  congr 1
  exact List.map_congr_left fun json _ => String.toList_ofList

/-- **There is one line for each document**, and it holds its compact text. -/
theorem lines_resultText (values : List Json) :
    lines (resultText true values).toList = values.map Json.compact := by
  rw [toList_resultText]
  refine lines_intercalate (List.forall_mem_map.mpr fun json _ => ⟨?_, json.isOf_compact⟩)
  obtain ⟨first, rest, starts, _⟩ := json.exists_head_compact
  rw [starts]
  exact List.cons_ne_nil _ _

/-- The lines of documents stand in a relation when each of them does. -/
theorem forall₂_lines_resultText {α : Type} {things : List α} {json : α → Json}
    {relation : α → List Char → Prop}
    (each : ∀ thing ∈ things, relation thing (json thing).compact) :
    List.Forall₂ relation things (lines (resultText true (things.map json)).toList) := by
  rw [lines_resultText, List.forall₂_map_right_iff, List.forall₂_map_right_iff, List.forall₂_same]
  exact each

/-- The line of a document is not blank. -/
theorem all_isBlank_compact (json : Json) : json.compact.all Text.isBlank = false := by
  obtain ⟨first, rest, starts, ink⟩ := json.exists_head_compact
  rw [starts, List.all_cons, Text.isBlank_of_isInk ink, Bool.false_and]

/-- **Each document is found again** on its line. -/
theorem documentTexts_resultText (values : List Json) :
    documentTexts true (resultText true values) = values.map Json.render := by
  rw [documentTexts, if_pos rfl, lines_resultText, List.filter_eq_self.mpr, List.map_map]
  · rfl
  · refine List.forall_mem_map.mpr fun json _ => ?_
    rw [all_isBlank_compact]
    rfl

/-! ## (4) Results -/

/-- **A text holds documents on lines**: their compact texts are joined by line feeds, and are the
lines of the text. -/
structure HoldsLines (values : List Json) (text : String) : Prop where
  /-- The compact texts are joined by line feeds. -/
  joined : text.toList = ['\n'].intercalate (values.map Json.compact)
  /-- There is one line for each document. -/
  lines_eq : lines text.toList = values.map Json.compact

/-- **A text is an array of documents**: between brackets it holds each document on lines of its
own, indented, and commas between them. -/
structure IsArray (values : List Json) (text : String) : Prop where
  /-- Without documents there are the brackets alone. -/
  of_isEmpty : values = [] → text = "[]"
  /-- Documents stand on lines of their own. -/
  of_ne_nil : values ≠ [] → text.toList =
    ['[', '\n'] ++ [',', '\n'].intercalate (values.map fun value => ' ' :: ' ' :: value.indented 1)
      ++ ['\n', ']']

/-- **A text holds the results** of a run: on lines, or as one array. -/
def HoldsResults (isLineByLine : Bool) (values : List Json) (text : String) : Prop :=
  if isLineByLine then HoldsLines values text else IsArray values text

/-- The items of an array are joined by commas at the ends of lines. -/
theorem indentedItems_eq_intercalate (first : Json) (rest : List Json) :
    ' ' :: ' ' :: first.indented 1 ++ Json.indentedItems 0 rest =
      [',', '\n'].intercalate ((first :: rest).map fun value => ' ' :: ' ' :: value.indented 1)
        ++ ['\n', ']'] := by
  induction rest generalizing first with
  | nil => rw [List.map_singleton, List.intercalate_singleton]; rfl
  | cons next rest induction =>
      have later := induction next
      rw [List.map_cons] at later
      rw [List.map_cons, List.map_cons, List.intercalate_cons_cons, List.append_assoc, ← later]
      simp [Json.indentedItems, Json.newline]

/-- Documents that are not put on lines are the items of an array. -/
theorem isArray_resultText (values : List Json) : IsArray values (resultText false values) := by
  refine ⟨fun none => by rw [none]; rfl, fun some => ?_⟩
  obtain ⟨first, rest, rfl⟩ := List.exists_cons_of_ne_nil some
  have text : (resultText false (first :: rest)).toList =
      ['[', '\n'] ++ (' ' :: ' ' :: first.indented 1 ++ Json.indentedItems 0 rest) :=
    String.toList_ofList
  rw [text, indentedItems_eq_intercalate, List.append_assoc]

/-- **The text of results** holds them. -/
theorem holdsResults_resultText (isLineByLine : Bool) (values : List Json) :
    HoldsResults isLineByLine values (resultText isLineByLine values) := by
  cases isLineByLine with
  | true => exact ⟨toList_resultText values, lines_resultText values⟩
  | false => exact isArray_resultText values

end CommandLine

end WireSchema

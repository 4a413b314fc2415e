import WireSchema.FilterLanguage
import WireSchema.Json.Printer
import WireSchema.Proofs.Gathering

/-! # What filters give

A filter of any language gives documents when its text is one of the language and each of its
outputs spells a document (`apply_eq_ok_iff`). Otherwise its text is rejected, or one of the outputs
cannot be computed or spells nothing (`apply_eq_error_iff`). -/

namespace WireSchema.FilterLanguage

variable {language : FilterLanguage} {filter : String} {document : Json}

/-- An output **spells** a document: it is there, and its text is read as the document. -/
def Spells (output : Except String String) (document : Json) : Prop :=
  ∃ text, output = .ok text ∧ Json.parse text = .ok document

/-- A filter **gives** documents: its text is loaded, and the outputs for the document spell them in
order. -/
def Gives (language : FilterLanguage) (filter : String) (document : Json) (results : List Json) :
    Prop :=
  ∃ outputs, language.load filter = .ok outputs ∧
    List.Forall₂ Spells (outputs document) results

/-- A filter **fails** on a document. -/
inductive Fails (language : FilterLanguage) (filter : String) (document : Json) : Prop
  /-- The text is rejected. -/
  | rejected {rejection : FilterRejection} (rejects : language.load filter = .error rejection)
  /-- An output cannot be computed. -/
  | failed {outputs : Json → List (Except String String)} {problem : String}
      (loads : language.load filter = .ok outputs) (held : .error problem ∈ outputs document)
  /-- An output spells no document. -/
  | unreadable {outputs : Json → List (Except String String)} {text : String}
      {problem : Json.SyntaxError} (loads : language.load filter = .ok outputs)
      (held : .ok text ∈ outputs document) (fails : Json.parse text = .error problem)

/-- Reading an output gives the document that it spells. -/
theorem readOutput_eq_ok_iff {output : Except String String} {result : Json} :
    readOutput output = .ok result ↔ Spells output result := by
  cases output with
  | error problem => exact ⟨nofun, fun ⟨_, missing, _⟩ => nomatch missing⟩
  | ok text =>
      rw [readOutput, mapError_eq_ok_iff]
      constructor
      · exact fun parses => ⟨text, rfl, parses⟩
      · rintro ⟨_, ⟨⟩, parses⟩
        exact parses

/-- **A filter succeeds** exactly when it gives documents, and with these. -/
theorem apply_eq_ok_iff {results : List Json} :
    language.apply filter document = .ok results ↔ language.Gives filter document results := by
  rw [apply, Gives]
  cases language.load filter with
  | error rejection => exact ⟨nofun, fun ⟨_, never, _⟩ => nomatch never⟩
  | ok outputs =>
      simp only [mapM_eq_ok_iff, readOutput_eq_ok_iff]
      constructor
      · exact fun spell => ⟨outputs, rfl, spell⟩
      · rintro ⟨_, ⟨⟩, spell⟩
        exact spell

/-- **A filter gives no documents** exactly when it fails. -/
theorem apply_eq_error_iff :
    (∃ failure, language.apply filter document = .error failure) ↔
      language.Fails filter document := by
  rw [apply]
  cases loads : language.load filter with
  | error rejection => exact ⟨fun _ => .rejected loads, fun _ => ⟨_, rfl⟩⟩
  | ok outputs =>
      rw [exists_mapM_eq_error_iff]
      constructor
      · rintro ⟨output, held, failure, fails⟩
        cases output with
        | error problem => exact .failed loads held
        | ok text =>
            obtain ⟨problem, fails, _⟩ := mapError_eq_error_iff.mp fails
            exact .unreadable loads held fails
      · intro fails
        cases fails with
        | rejected rejects => cases loads.symm.trans rejects
        | failed loadsToo held =>
            cases loads.symm.trans loadsToo
            exact ⟨_, held, _, rfl⟩
        | unreadable loadsToo held fails =>
            cases loads.symm.trans loadsToo
            exact ⟨_, held, _, mapError_eq_error_iff.mpr ⟨_, fails, rfl⟩⟩

/-! ## A filter that drops documents -/

/-- A language with one filter, which drops null and gives any other document as it is. -/
def droppingNull : FilterLanguage where
  load text :=
    if text = "select(. != null)" then
      .ok fun
        | .null => []
        | document => [.ok document.render]
    else .error (.malformed [text])

/-- The filter gives nothing for null. -/
theorem gives_droppingNull_null : droppingNull.Gives "select(. != null)" .null [] :=
  ⟨_, rfl, .nil⟩

/-- The filter gives a number as it is. -/
theorem gives_droppingNull_one :
    droppingNull.Gives "select(. != null)" (.number (.integer 1)) [.number (.integer 1)] :=
  ⟨_, rfl, .cons ⟨_, rfl, rfl⟩ .nil⟩

end WireSchema.FilterLanguage

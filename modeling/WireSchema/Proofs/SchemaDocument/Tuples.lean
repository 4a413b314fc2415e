import WireSchema.Proofs.SchemaDocument.Leaves

/-! # Reading tuples

Tuples and their elements are read, given that the schemas inside them are. About each record there
are two lemmas: what its members settle when they come in any order, by induction on the members
with all that has been read before left open, and what is read from both of its forms. -/

namespace WireSchema.SchemaDocument

open Json (Written Piece Location)
open Json.Written (Shows ShowItems ShowMembers)
open Members

variable {levels : Nat} {location : Location}

/-! ## (1) Schemas inside schemas -/

/-- Schemas are read **up to** some levels. -/
def ReadsUpTo (levels : Nat) : Prop :=
  ∀ lower ≤ levels, Reads lower (readSchema lower) IsSpelledBy

/-- Schemas are read as they are spelled at the topmost of the levels. -/
theorem ReadsUpTo.self (below : ReadsUpTo levels) : Reads levels (readSchema levels) IsSpelledBy :=
  below levels le_rfl

/-- Inside an array or an object, schemas are still read. -/
theorem ReadsUpTo.inner (below : ReadsUpTo levels) {inner : Nat}
    (enters : Json.enter levels = .ok inner) : ReadsUpTo inner :=
  fun lower bound => below lower (bound.trans (lt_of_enter enters).le)

/-- Null spells no schema. -/
theorem isSpelledBy_ne_null (document : SchemaDocument) : ¬document.IsSpelledBy .null := by
  cases document <;> simp [IsSpelledBy, IsVariant]

/-! ## (2) Elements -/

/-- The members of an element settle its type and its flag. -/
theorem readElementMembers_eq_ok_iff (below : ReadsUpTo levels)
    {members : List (List Piece × Written)} {values : List (String × Json)}
    (shown : ShowMembers members values) (shallow : ∀ value ∈ values, value.2.depth ≤ levels)
    {type : Option SchemaDocument} {isOptional : Option Bool} {element : Element SchemaDocument} :
    readElementMembers levels location members .closed type isOptional = .ok element ↔
      (∀ name ∈ keys values, name ∈ elementNames) ∧
        Settles IsSpelledBy (fun _ => False) type (valuesOf values "type") element.type ∧
        Settles FlagIsSpelledBy (· = false) isOptional (valuesOf values "optional")
          element.isOptional := by
  induction values generalizing members type isOptional with
  | nil =>
      cases shown
      obtain ⟨ownType, isOwnOptional⟩ := element
      simp only [readElementMembers, recordEnd_closed, ok_bind, valuesOf_nil, bind_eq_ok_iff,
        required_eq_ok_iff IsSpelledBy, settles_nil_iff, pure_eq_ok_iff, Element.mk.injEq]
      simp
  | cons value rest induction =>
      cases shown with | @cons pieces name written json _ _ spells first others
      rw [List.forall_mem_cons] at shallow
      rw [readElementMembers, readName_eq_ok spells, ok_bind, keys_cons, List.forall_mem_cons]
      -- a case for each known name, where the member is one of the values that settle its part
      split
      case h_1 =>
        have known : "type" ∈ elementNames := by decide
        rw [readMember_eq_ok_iff below.self first shallow.1]
        simp only [induction others shallow.2, valuesOf_cons, String.reduceEq, reduceIte,
          settles_cons_iff, known]
        tauto
      case h_2 =>
        have known : "optional" ∈ elementNames := by decide
        rw [readMember_eq_ok_iff reads_flag first shallow.1]
        simp only [induction others shallow.2, valuesOf_cons, String.reduceEq, reduceIte,
          settles_cons_iff, known]
        tauto
      case h_3 _ notType notOptional =>
        -- a member of any other name is refused
        have unknown : name ∉ elementNames := by simpa [elementNames] using ⟨notType, notOptional⟩
        simp [unknown, fail]

/-- An element is a record with a type. -/
theorem reads_element (below : ReadsUpTo levels) :
    Reads levels (readElement levels) ElementIsSpelledBy := by
  intro location written json shown shallow element
  obtain ⟨type, isOptional⟩ := element
  cases shown with
  | @object members values shown =>
      obtain ⟨inner, enters, shallow⟩ := Json.depth_object_le_iff.mp shallow
      simp only [readElement, enter_bind_eq_ok_iff enters,
        readElementMembers_eq_ok_iff (below.inner enters) shown shallow, settles_none_iff,
        holdsUnless_false_iff, ElementIsSpelledBy, isRecord_object_iff, exists_eq_left, and_assoc,
        elementNames, List.forall_mem_cons]
      tauto
  | @array items values shown =>
      obtain ⟨inner, enters, shallow⟩ := Json.depth_array_le_iff.mp shallow
      simp only [ElementIsSpelledBy, isRecord_array_iff, exists_eq_left, and_assoc]
      -- the type has no default, so that there has to be an item for it
      cases shown with
      | nil => simp [readElement, bind_eq_ok_iff, positionMissing_ne_ok]
      | @cons _ value _ values first rest =>
          rw [List.forall_mem_cons] at shallow
          simp only [readElement, enter_bind_eq_ok_iff enters, bind_eq_ok_iff,
            (below.inner enters).self _ _ _ first shallow.1,
            readPosition_eq_ok_iff reads_flag rest shallow.2 "optional" [],
            positionsEnd_eq_ok_iff (shows_tail rest), pure_eq_ok_iff, Element.mk.injEq]
          simp (disch := decide) only [length_le_cons_iff, length_le_nil_iff, List.tail_cons,
            List.zip_cons_cons, holds_cons_self, holdsUnless_cons_of_ne]
          constructor
          · rintro ⟨_, ofType, _, ofFlag, _, isLast, rfl, rfl⟩
            exact ⟨isLast, ofType, ofFlag⟩
          · rintro ⟨isLast, ofType, ofFlag⟩
            exact ⟨_, ofType, _, ofFlag, (), isLast, rfl, rfl⟩
  | _ =>
      simp only [readElement, wrongType_ne_ok, ElementIsSpelledBy, false_iff]
      rintro ⟨_, ⟨⟩, _⟩

/-- An array spells elements exactly if its items spell them one by one. -/
theorem elementsAreSpelledBy_array_iff {elements : List (Element SchemaDocument)}
    {values : List Json} :
    ElementsAreSpelledBy elements (.array values) ↔
      List.Forall₂ ElementIsSpelledBy elements values := by
  induction elements generalizing values with
  | nil => simp [ElementsAreSpelledBy]
  | cons element elements induction =>
      cases values <;> simp [ElementsAreSpelledBy, induction]

/-- Elements are read as they are spelled. -/
theorem reads_elements (below : ReadsUpTo levels) :
    Reads levels (readElements levels) ElementsAreSpelledBy := by
  intro location written json shown shallow elements
  cases shown with
  | @array items values shown =>
      obtain ⟨inner, enters, shallow⟩ := Json.depth_array_le_iff.mp shallow
      have each : ∀ parts, readElementItems inner location 0 items = .ok parts ↔
          List.Forall₂ ElementIsSpelledBy parts values := fun _ =>
        readEach_eq_ok_iff (reads_element (below.inner enters))
          (fun _ => by rw [readElementItems]) (fun _ _ _ => by rw [readElementItems]) shown shallow
      simp only [readElements, enter_bind_eq_ok_iff enters, bind_eq_ok_iff, each, Json.arrayEnd,
        ofJson_eq_ok_iff, pure_eq_ok_iff, elementsAreSpelledBy_array_iff]
      simp
  | _ => cases elements <;> simp [readElements, wrongType_ne_ok, ElementsAreSpelledBy]

/-! ## (3) Tuples -/

/-- A rest is spelled, or null for none. -/
theorem restIsSpelledBy_iff {rest : Option SchemaDocument} {json : Json} :
    RestIsSpelledBy rest json ↔ OrNull IsSpelledBy rest json := by
  cases rest <;> rw [RestIsSpelledBy, OrNull]

/-- A rest, or null for none, is read as it is spelled. -/
theorem reads_rest (below : ReadsUpTo levels) : Reads levels
    (fun location written => orNull location written (readSchema levels location written))
    RestIsSpelledBy := by
  intro location written json shown shallow rest
  rw [restIsSpelledBy_iff]
  exact reads_orNull below.self isSpelledBy_ne_null _ _ _ shown shallow rest

/-- Which documents tuples describe. -/
def TupleIsSpelledBy (document : SchemaDocument) (json : Json) : Prop :=
  ∃ elements rest isReadonly, tuple elements rest isReadonly = document ∧
    ∃ members, IsRecord ["elements", "rest", "readonly"] json members ∧
      HoldsUnless members "elements" (elements = []) (ElementsAreSpelledBy elements) ∧
      HoldsUnless members "rest" (rest = none) (RestIsSpelledBy rest) ∧
      HoldsUnless members "readonly" (isReadonly = false) (FlagIsSpelledBy isReadonly)

/-- The members of a tuple settle its elements, its rest type and its flag. -/
theorem readTupleMembers_eq_ok_iff (below : ReadsUpTo levels)
    {members : List (List Piece × Written)} {values : List (String × Json)}
    (shown : ShowMembers members values) (shallow : ∀ value ∈ values, value.2.depth ≤ levels)
    {elements : Option (List (Element SchemaDocument))} {rest : Option (Option SchemaDocument)}
    {isReadonly : Option Bool} {document : SchemaDocument} :
    readTupleMembers levels location members .closed elements rest isReadonly = .ok document ↔
      (∀ name ∈ keys values, name ∈ tupleNames) ∧
        ∃ ownElements ownRest isOwnReadonly, tuple ownElements ownRest isOwnReadonly = document ∧
          Settles ElementsAreSpelledBy (· = []) elements (valuesOf values "elements") ownElements ∧
          Settles RestIsSpelledBy (· = none) rest (valuesOf values "rest") ownRest ∧
          Settles FlagIsSpelledBy (· = false) isReadonly (valuesOf values "readonly")
            isOwnReadonly := by
  induction values generalizing members elements rest isReadonly with
  | nil =>
      cases shown
      simp only [readTupleMembers, recordEnd_closed, ok_bind, valuesOf_nil, settles_nil_iff,
        pure_eq_ok_iff]
      simp
  | cons value behind induction =>
      cases shown with | @cons pieces name written json _ _ spells first others
      rw [List.forall_mem_cons] at shallow
      rw [readTupleMembers, readName_eq_ok spells, ok_bind, keys_cons, List.forall_mem_cons]
      split
      case h_1 =>
        have known : "elements" ∈ tupleNames := by decide
        rw [readMember_eq_ok_iff (reads_elements below) first shallow.1]
        simp only [induction others shallow.2, valuesOf_cons, String.reduceEq, reduceIte,
          settles_cons_iff, known]
        tauto
      case h_2 =>
        have known : "rest" ∈ tupleNames := by decide
        rw [readMember_eq_ok_iff (reads_rest below) first shallow.1]
        simp only [induction others shallow.2, valuesOf_cons, String.reduceEq, reduceIte,
          settles_cons_iff, known]
        tauto
      case h_3 =>
        have known : "readonly" ∈ tupleNames := by decide
        rw [readMember_eq_ok_iff reads_flag first shallow.1]
        simp only [induction others shallow.2, valuesOf_cons, String.reduceEq, reduceIte,
          settles_cons_iff, known]
        tauto
      case h_4 _ notElements notRest notReadonly =>
        have unknown : name ∉ tupleNames := by
          simpa [tupleNames] using ⟨notElements, notRest, notReadonly⟩
        simp [unknown, fail]

/-- A tuple is a record of which all members may be missing. -/
theorem reads_tuple (below : ReadsUpTo levels) :
    Reads levels (readTuple levels) TupleIsSpelledBy := by
  intro location written json shown shallow document
  cases shown with
  | @object members values shown =>
      obtain ⟨inner, enters, shallow⟩ := Json.depth_object_le_iff.mp shallow
      simp only [readTuple, enter_bind_eq_ok_iff enters,
        readTupleMembers_eq_ok_iff (below.inner enters) shown shallow, settles_none_iff,
        TupleIsSpelledBy, isRecord_object_iff, exists_eq_left, and_assoc, tupleNames,
        List.forall_mem_cons]
      constructor
      · rintro ⟨known, elements, rest, isReadonly, same, once, ofElements, restOnce, ofRest,
          flagOnce, ofFlag⟩
        exact ⟨elements, rest, isReadonly, same, known, once, restOnce, flagOnce, nofun,
          ofElements, ofRest, ofFlag⟩
      · rintro ⟨elements, rest, isReadonly, same, known, once, restOnce, flagOnce, _,
          ofElements, ofRest, ofFlag⟩
        exact ⟨known, elements, rest, isReadonly, same, once, ofElements, restOnce, ofRest,
          flagOnce, ofFlag⟩
  | @array items values shown =>
      obtain ⟨inner, enters, shallow⟩ := Json.depth_array_le_iff.mp shallow
      have inside := below.inner enters
      simp only [TupleIsSpelledBy, isRecord_array_iff, exists_eq_left, and_assoc]
      -- every member has a default, so that the array may end anywhere
      match shown with
      | .nil =>
          simp only [readTuple, enter_bind_eq_ok_iff enters, positionsCut_closed, ok_bind,
            pure_eq_ok_iff]
          simp
      | .cons first .nil =>
          rw [List.forall_mem_cons] at shallow
          simp only [readTuple, enter_bind_eq_ok_iff enters, bind_eq_ok_iff,
            reads_elements inside _ _ _ first shallow.1, positionsCut_closed, pure_eq_ok_iff]
          simp (disch := decide) only [List.zip_cons_cons, List.zip_nil_right,
            holdsUnless_cons_self, holdsUnless_cons_of_ne, holdsUnless_nil]
          constructor
          · rintro ⟨elements, ofElements, _, _, same⟩
            exact ⟨elements, none, false, same, by simp, ofElements, rfl, rfl⟩
          · rintro ⟨elements, _, _, same, _, ofElements, rfl, rfl⟩
            exact ⟨elements, ofElements, (), trivial, same⟩
      | .cons first (.cons second behind) =>
          rw [List.forall_mem_cons, List.forall_mem_cons] at shallow
          simp only [readTuple, enter_bind_eq_ok_iff enters, bind_eq_ok_iff,
            reads_elements inside _ _ _ first shallow.1,
            reads_rest inside _ _ _ second shallow.2.1,
            readPosition_eq_ok_iff reads_flag behind shallow.2.2 "readonly" [],
            positionsEnd_eq_ok_iff (shows_tail behind), pure_eq_ok_iff]
          simp (disch := decide) only [length_le_cons_iff, length_le_nil_iff, List.tail_cons,
            List.zip_cons_cons, holdsUnless_cons_self, holdsUnless_cons_of_ne]
          constructor
          · rintro ⟨elements, ofElements, rest, ofRest, isReadonly, ofFlag, _, isLast, same⟩
            exact ⟨elements, rest, isReadonly, same, isLast, ofElements, ofRest, ofFlag⟩
          · rintro ⟨elements, rest, isReadonly, same, isLast, ofElements, ofRest, ofFlag⟩
            exact ⟨elements, ofElements, rest, ofRest, isReadonly, ofFlag, (), isLast, same⟩
  | _ =>
      simp only [readTuple, wrongType_ne_ok, TupleIsSpelledBy, false_iff]
      rintro ⟨_, _, _, _, _, ⟨⟩, _⟩

end WireSchema.SchemaDocument

import WireSchema.Proofs.SchemaDocument.Tuples

/-! # Reading structs

Structs, their fields and their index signatures are read, given that the schemas inside them are:
two lemmas about each record, as for tuples. -/

namespace WireSchema.SchemaDocument

open Json (Written Piece Location)
open Json.Written (Shows ShowItems ShowMembers)
open Members

variable {levels : Nat} {location : Location}

/-! ## (1) Fields -/

/-- The members of a field settle its six parts. -/
theorem readFieldMembers_eq_ok_iff (below : ReadsUpTo levels)
    {members : List (List Piece × Written)} {values : List (String × Json)}
    (shown : ShowMembers members values) (shallow : ∀ value ∈ values, value.2.depth ≤ levels)
    {before : FieldMembers} {field : Field SchemaDocument} :
    readFieldMembers levels location members .closed before = .ok field ↔
      (∀ name ∈ keys values, name ∈ fieldNames) ∧
        Settles TextIsSpelledBy (fun _ => False) before.name (valuesOf values "name") field.name ∧
        Settles IsSpelledBy (fun _ => False) before.type (valuesOf values "type") field.type ∧
        Settles FlagIsSpelledBy (· = false) before.isOptional (valuesOf values "optional")
          field.isOptional ∧
        Settles FlagIsSpelledBy (· = false) before.isReadonly (valuesOf values "readonly")
          field.isReadonly ∧
        Settles (OrNull TextIsSpelledBy) (· = none) before.rename (valuesOf values "rename")
          field.rename ∧
        Settles AnnotationsAreSpelledBy (· = []) before.annotations
          (valuesOf values "annotations") field.annotations := by
  -- what has been read before a member is told by `before`, whatever it is
  induction values generalizing members before with
  | nil =>
      cases shown
      obtain ⟨ownName, ownType, isOwnOptional, isOwnReadonly, ownRename, ownAnnotations⟩ := field
      simp only [readFieldMembers, recordEnd_closed, ok_bind, valuesOf_nil, FieldMembers.toField,
        bind_eq_ok_iff, required_eq_ok_iff IsSpelledBy, required_eq_ok_iff TextIsSpelledBy,
        settles_nil_iff, pure_eq_ok_iff, Field.mk.injEq]
      simp
  | cons value behind induction =>
      cases shown with | @cons pieces name written json _ _ spells first others
      rw [List.forall_mem_cons] at shallow
      rw [readFieldMembers, readName_eq_ok spells, ok_bind, keys_cons, List.forall_mem_cons]
      -- one case for each name that is known, and one for all other names
      split
      case h_1 =>
        have known : "name" ∈ fieldNames := by decide
        rw [readMember_eq_ok_iff reads_text first shallow.1]
        simp only [induction others shallow.2, valuesOf_cons, String.reduceEq, reduceIte,
          settles_cons_iff, known]
        tauto
      case h_2 =>
        have known : "type" ∈ fieldNames := by decide
        rw [readMember_eq_ok_iff below.self first shallow.1]
        simp only [induction others shallow.2, valuesOf_cons, String.reduceEq, reduceIte,
          settles_cons_iff, known]
        tauto
      case h_3 =>
        have known : "optional" ∈ fieldNames := by decide
        rw [readMember_eq_ok_iff reads_flag first shallow.1]
        simp only [induction others shallow.2, valuesOf_cons, String.reduceEq, reduceIte,
          settles_cons_iff, known]
        tauto
      case h_4 =>
        have known : "readonly" ∈ fieldNames := by decide
        rw [readMember_eq_ok_iff reads_flag first shallow.1]
        simp only [induction others shallow.2, valuesOf_cons, String.reduceEq, reduceIte,
          settles_cons_iff, known]
        tauto
      case h_5 =>
        have known : "rename" ∈ fieldNames := by decide
        rw [readMember_eq_ok_iff reads_optionalText first shallow.1]
        simp only [induction others shallow.2, valuesOf_cons, String.reduceEq, reduceIte,
          settles_cons_iff, known]
        tauto
      case h_6 =>
        have known : "annotations" ∈ fieldNames := by decide
        rw [readMember_eq_ok_iff reads_annotations first shallow.1]
        simp only [induction others shallow.2, valuesOf_cons, String.reduceEq, reduceIte,
          settles_cons_iff, known]
        tauto
      case h_7 _ notName notType notOptional notReadonly notRename notAnnotations =>
        have unknown : name ∉ fieldNames := by
          simpa [fieldNames] using
            ⟨notName, notType, notOptional, notReadonly, notRename, notAnnotations⟩
        simp [unknown, fail]

/-- The names of the members of a field behind its name and its type. -/
def laterFieldNames : List String := ["optional", "readonly", "rename", "annotations"]

/-- The members of a field behind its name and its type are read by their positions. -/
theorem readFieldPositions_eq_ok_iff {items : List Written} {values : List Json}
    (shown : ShowItems items values) (shallow : ∀ value ∈ values, value.depth ≤ levels)
    {name : String} {type : SchemaDocument} {field : Field SchemaDocument} :
    readFieldPositions levels location .closed name type items = .ok field ↔
      name = field.name ∧ type = field.type ∧ values.length ≤ laterFieldNames.length ∧
        HoldsUnless (laterFieldNames.zip values) "optional" (field.isOptional = false)
          (FlagIsSpelledBy field.isOptional) ∧
        HoldsUnless (laterFieldNames.zip values) "readonly" (field.isReadonly = false)
          (FlagIsSpelledBy field.isReadonly) ∧
        HoldsUnless (laterFieldNames.zip values) "rename" (field.rename = none)
          (OrNull TextIsSpelledBy field.rename) ∧
        HoldsUnless (laterFieldNames.zip values) "annotations" (field.annotations = [])
          (AnnotationsAreSpelledBy field.annotations) := by
  -- each position takes one item from those that the positions before it have left
  have behind : ∀ values : List Json, (∀ value ∈ values, value.depth ≤ levels) →
      ∀ value ∈ values.tail, value.depth ≤ levels :=
    fun values shallow value member => shallow value (List.mem_of_mem_tail member)
  simp only [readFieldPositions,
    readPosition_eq_ok_iff reads_flag shown shallow "optional"
      ["readonly", "rename", "annotations"],
    readPosition_eq_ok_iff reads_flag (shows_tail shown) (behind _ shallow) "readonly"
      ["rename", "annotations"],
    readPosition_eq_ok_iff reads_optionalText (shows_tail (shows_tail shown))
      (behind _ (behind _ shallow)) "rename" ["annotations"],
    readPosition_eq_ok_iff reads_annotations (shows_tail (shows_tail (shows_tail shown)))
      (behind _ (behind _ (behind _ shallow))) "annotations" []]
  simp (disch := decide) only [laterFieldNames, holdsUnless_zip_of_ne, length_le_cons_iff,
    length_le_nil_iff]
  obtain ⟨ownName, ownType, isOptional, isReadonly, rename, annotations⟩ := field
  simp only [bind_eq_ok_iff, positionsEnd_eq_ok_iff
    (shows_tail (shows_tail (shows_tail (shows_tail shown)))), pure_eq_ok_iff, Field.mk.injEq]
  constructor
  · rintro ⟨_, ofOptional, _, ofReadonly, _, ofRename, _, ofAnnotations, _, isLast, rfl, rfl, rfl,
      rfl, rfl, rfl⟩
    exact ⟨rfl, rfl, isLast, ofOptional, ofReadonly, ofRename, ofAnnotations⟩
  · rintro ⟨rfl, rfl, isLast, ofOptional, ofReadonly, ofRename, ofAnnotations⟩
    exact ⟨_, ofOptional, _, ofReadonly, _, ofRename, _, ofAnnotations, (), isLast, rfl, rfl, rfl,
      rfl, rfl, rfl⟩

/-- A field is a record with a name and a type. -/
theorem reads_field (below : ReadsUpTo levels) :
    Reads levels (readField levels) FieldIsSpelledBy := by
  intro location written json shown shallow field
  obtain ⟨name, type, isOptional, isReadonly, rename, annotations⟩ := field
  cases shown with
  | @object members values shown =>
      obtain ⟨inner, enters, shallow⟩ := Json.depth_object_le_iff.mp shallow
      simp only [readField, enter_bind_eq_ok_iff enters,
        readFieldMembers_eq_ok_iff (below.inner enters) shown shallow, settles_none_iff,
        holdsUnless_false_iff, FieldIsSpelledBy, isRecord_object_iff, exists_eq_left, and_assoc,
        fieldNames, List.forall_mem_cons]
      tauto
  | @array items values shown =>
      obtain ⟨inner, enters, shallow⟩ := Json.depth_array_le_iff.mp shallow
      have inside := below.inner enters
      simp only [FieldIsSpelledBy, isRecord_array_iff, exists_eq_left, and_assoc]
      -- an array needs a name and a type; the positions behind them have defaults
      match shown with
      | .nil => simp [readField, bind_eq_ok_iff, positionMissing_ne_ok]
      | .cons _ .nil =>
          simp [readField, bind_eq_ok_iff, positionMissing_ne_ok, holds_cons_of_ne]
      | .cons first (.cons second behind) =>
          rw [List.forall_mem_cons, List.forall_mem_cons] at shallow
          simp only [readField, enter_bind_eq_ok_iff enters, bind_eq_ok_iff,
            reads_text _ _ _ first shallow.1, inside.self _ _ _ second shallow.2.1,
            readFieldPositions_eq_ok_iff behind shallow.2.2]
          simp (disch := decide) only [laterFieldNames, length_le_cons_iff, length_le_nil_iff,
            List.tail_cons, List.zip_cons_cons, holds_cons_self, holds_cons_of_ne,
            holdsUnless_cons_of_ne]
          constructor
          · rintro ⟨_, ofName, _, ofType, rfl, rfl, isLast, ofOthers⟩
            exact ⟨isLast, ofName, ofType, ofOthers⟩
          · rintro ⟨isLast, ofName, ofType, ofOthers⟩
            exact ⟨_, ofName, _, ofType, rfl, rfl, isLast, ofOthers⟩
  | _ =>
      simp only [readField, wrongType_ne_ok, FieldIsSpelledBy, false_iff]
      rintro ⟨_, ⟨⟩, _⟩

/-- An array spells fields exactly if its items spell them one by one. -/
theorem fieldsAreSpelledBy_array_iff {fields : List (Field SchemaDocument)} {values : List Json} :
    FieldsAreSpelledBy fields (.array values) ↔ List.Forall₂ FieldIsSpelledBy fields values := by
  induction fields generalizing values with
  | nil => simp [FieldsAreSpelledBy]
  | cons field fields induction => cases values <;> simp [FieldsAreSpelledBy, induction]

/-- Fields are read as they are spelled. -/
theorem reads_fields (below : ReadsUpTo levels) :
    Reads levels (readFields levels) FieldsAreSpelledBy := by
  intro location written json shown shallow fields
  cases shown with
  | @array items values shown =>
      obtain ⟨inner, enters, shallow⟩ := Json.depth_array_le_iff.mp shallow
      have each : ∀ parts, readFieldItems inner location 0 items = .ok parts ↔
          List.Forall₂ FieldIsSpelledBy parts values := fun _ =>
        readEach_eq_ok_iff (reads_field (below.inner enters))
          (fun _ => by rw [readFieldItems]) (fun _ _ _ => by rw [readFieldItems]) shown shallow
      simp only [readFields, enter_bind_eq_ok_iff enters, bind_eq_ok_iff, each, Json.arrayEnd,
        ofJson_eq_ok_iff, pure_eq_ok_iff, fieldsAreSpelledBy_array_iff]
      simp
  | _ => cases fields <;> simp [readFields, wrongType_ne_ok, FieldsAreSpelledBy]

/-! ## (2) Index signatures -/

/-- The members of an index signature settle its three parts. -/
theorem readIndexMembers_eq_ok_iff (below : ReadsUpTo levels)
    {members : List (List Piece × Written)} {values : List (String × Json)}
    (shown : ShowMembers members values) (shallow : ∀ value ∈ values, value.2.depth ≤ levels)
    {key : Option (Option LeafType)} {type : Option SchemaDocument} {isReadonly : Option Bool}
    {entry : IndexEntry SchemaDocument} :
    readIndexMembers levels location members .closed key type isReadonly = .ok entry ↔
      (∀ name ∈ keys values, name ∈ indexNames) ∧
        Settles (OrNull LeafIsSpelledBy) (· = none) key (valuesOf values "key") entry.key ∧
        Settles IsSpelledBy (fun _ => False) type (valuesOf values "type") entry.value ∧
        Settles FlagIsSpelledBy (· = false) isReadonly (valuesOf values "readonly")
          entry.isReadonly := by
  induction values generalizing members key type isReadonly with
  | nil =>
      cases shown
      obtain ⟨ownKey, ownType, isOwnReadonly⟩ := entry
      simp only [readIndexMembers, recordEnd_closed, ok_bind, valuesOf_nil, bind_eq_ok_iff,
        required_eq_ok_iff IsSpelledBy, settles_nil_iff, pure_eq_ok_iff, IndexEntry.mk.injEq]
      simp
      tauto
  | cons value behind induction =>
      cases shown with | @cons pieces name written json _ _ spells first others
      rw [List.forall_mem_cons] at shallow
      rw [readIndexMembers, readName_eq_ok spells, ok_bind, keys_cons, List.forall_mem_cons]
      -- one case for each name that is known, and one for all other names
      split
      case h_1 =>
        have known : "key" ∈ indexNames := by decide
        rw [readMember_eq_ok_iff reads_optionalLeaf first shallow.1]
        simp only [induction others shallow.2, valuesOf_cons, String.reduceEq, reduceIte,
          settles_cons_iff, known]
        tauto
      case h_2 =>
        have known : "type" ∈ indexNames := by decide
        rw [readMember_eq_ok_iff below.self first shallow.1]
        simp only [induction others shallow.2, valuesOf_cons, String.reduceEq, reduceIte,
          settles_cons_iff, known]
        tauto
      case h_3 =>
        have known : "readonly" ∈ indexNames := by decide
        rw [readMember_eq_ok_iff reads_flag first shallow.1]
        simp only [induction others shallow.2, valuesOf_cons, String.reduceEq, reduceIte,
          settles_cons_iff, known]
        tauto
      case h_4 _ notKey notType notReadonly =>
        have unknown : name ∉ indexNames := by
          simpa [indexNames] using ⟨notKey, notType, notReadonly⟩
        simp [unknown, fail]

/-- An index signature is a record with a type, whose key stands before it. -/
theorem reads_entry (below : ReadsUpTo levels) :
    Reads levels (readIndex levels) EntryIsSpelledBy := by
  intro location written json shown shallow entry
  obtain ⟨key, type, isReadonly⟩ := entry
  cases shown with
  | @object members values shown =>
      obtain ⟨inner, enters, shallow⟩ := Json.depth_object_le_iff.mp shallow
      simp only [readIndex, enter_bind_eq_ok_iff enters,
        readIndexMembers_eq_ok_iff (below.inner enters) shown shallow, settles_none_iff,
        holdsUnless_false_iff, EntryIsSpelledBy, isRecord_object_iff, exists_eq_left, and_assoc,
        indexNames, List.forall_mem_cons]
      tauto
  | @array items values shown =>
      obtain ⟨inner, enters, shallow⟩ := Json.depth_array_le_iff.mp shallow
      have inside := below.inner enters
      simp only [EntryIsSpelledBy, isRecord_array_iff, exists_eq_left, and_assoc]
      -- the key stands before the type, so an array of one item misses the type
      match shown with
      | .nil => simp [readIndex, bind_eq_ok_iff, positionMissing_ne_ok]
      | .cons _ .nil =>
          simp [readIndex, bind_eq_ok_iff, positionMissing_ne_ok, holds_cons_of_ne]
      | .cons first (.cons second behind) =>
          rw [List.forall_mem_cons, List.forall_mem_cons] at shallow
          simp only [readIndex, enter_bind_eq_ok_iff enters, bind_eq_ok_iff,
            reads_optionalLeaf _ _ _ first shallow.1, inside.self _ _ _ second shallow.2.1,
            readPosition_eq_ok_iff reads_flag behind shallow.2.2 "readonly" [],
            positionsEnd_eq_ok_iff (shows_tail behind), pure_eq_ok_iff, IndexEntry.mk.injEq]
          simp (disch := decide) only [length_le_cons_iff, length_le_nil_iff, List.tail_cons,
            List.zip_cons_cons, holds_cons_self, holds_cons_of_ne, holdsUnless_cons_self,
            holdsUnless_cons_of_ne]
          constructor
          · rintro ⟨_, ofKey, _, ofType, _, ofFlag, _, isLast, rfl, rfl, rfl⟩
            exact ⟨isLast, ofKey, ofType, ofFlag⟩
          · rintro ⟨isLast, ofKey, ofType, ofFlag⟩
            exact ⟨_, ofKey, _, ofType, _, ofFlag, (), isLast, rfl, rfl, rfl⟩
  | _ =>
      simp only [readIndex, wrongType_ne_ok, EntryIsSpelledBy, false_iff]
      rintro ⟨_, ⟨⟩, _⟩

/-- Null spells no index signature. -/
theorem entryIsSpelledBy_ne_null (entry : IndexEntry SchemaDocument) :
    ¬EntryIsSpelledBy entry .null := by
  obtain ⟨key, type, isReadonly⟩ := entry
  rw [EntryIsSpelledBy]
  rintro ⟨_, ⟨⟩, _⟩

/-- An index signature is spelled, or null for none. -/
theorem indexIsSpelledBy_iff {index : Option (IndexEntry SchemaDocument)} {json : Json} :
    IndexIsSpelledBy index json ↔ OrNull EntryIsSpelledBy index json := by
  cases index <;> rw [IndexIsSpelledBy, OrNull]

/-- An index signature, or null for none, is read as it is spelled. -/
theorem reads_index (below : ReadsUpTo levels) : Reads levels
    (fun location written => orNull location written (readIndex levels location written))
    IndexIsSpelledBy := by
  intro location written json shown shallow index
  rw [indexIsSpelledBy_iff]
  exact reads_orNull (reads_entry below) entryIsSpelledBy_ne_null _ _ _ shown shallow index

/-! ## (3) Structs -/

/-- Which documents structs describe. -/
def StructIsSpelledBy (document : SchemaDocument) (json : Json) : Prop :=
  ∃ fields index, struct fields index = document ∧
    ∃ members, IsRecord ["fields", "index"] json members ∧
      Holds members "fields" (FieldsAreSpelledBy fields) ∧
      HoldsUnless members "index" (index = none) (IndexIsSpelledBy index)

/-- The members of a struct settle its fields and its index signature. -/
theorem readStructMembers_eq_ok_iff (below : ReadsUpTo levels)
    {members : List (List Piece × Written)} {values : List (String × Json)}
    (shown : ShowMembers members values) (shallow : ∀ value ∈ values, value.2.depth ≤ levels)
    {fields : Option (List (Field SchemaDocument))}
    {index : Option (Option (IndexEntry SchemaDocument))} {document : SchemaDocument} :
    readStructMembers levels location members .closed fields index = .ok document ↔
      (∀ name ∈ keys values, name ∈ structNames) ∧
        ∃ ownFields ownIndex, struct ownFields ownIndex = document ∧
          Settles FieldsAreSpelledBy (fun _ => False) fields (valuesOf values "fields") ownFields ∧
          Settles IndexIsSpelledBy (· = none) index (valuesOf values "index") ownIndex := by
  induction values generalizing members fields index with
  | nil =>
      cases shown
      simp only [readStructMembers, recordEnd_closed, ok_bind, valuesOf_nil, bind_eq_ok_iff,
        required_eq_ok_iff FieldsAreSpelledBy, settles_nil_iff, pure_eq_ok_iff]
      simp [and_comm]
  | cons value behind induction =>
      cases shown with | @cons pieces name written json _ _ spells first others
      rw [List.forall_mem_cons] at shallow
      rw [readStructMembers, readName_eq_ok spells, ok_bind, keys_cons, List.forall_mem_cons]
      -- one case for each name that is known, and one for all other names
      split
      case h_1 =>
        have known : "fields" ∈ structNames := by decide
        rw [readMember_eq_ok_iff (reads_fields below) first shallow.1]
        simp only [induction others shallow.2, valuesOf_cons, String.reduceEq, reduceIte,
          settles_cons_iff, known]
        tauto
      case h_2 =>
        have known : "index" ∈ structNames := by decide
        rw [readMember_eq_ok_iff (reads_index below) first shallow.1]
        simp only [induction others shallow.2, valuesOf_cons, String.reduceEq, reduceIte,
          settles_cons_iff, known]
        tauto
      case h_3 _ notFields notIndex =>
        have unknown : name ∉ structNames := by
          simpa [structNames] using ⟨notFields, notIndex⟩
        simp [unknown, fail]

/-- A struct is a record with fields. -/
theorem reads_struct (below : ReadsUpTo levels) :
    Reads levels (readStruct levels) StructIsSpelledBy := by
  intro location written json shown shallow document
  cases shown with
  | @object members values shown =>
      obtain ⟨inner, enters, shallow⟩ := Json.depth_object_le_iff.mp shallow
      simp only [readStruct, enter_bind_eq_ok_iff enters,
        readStructMembers_eq_ok_iff (below.inner enters) shown shallow, settles_none_iff,
        holdsUnless_false_iff, StructIsSpelledBy, isRecord_object_iff, exists_eq_left, and_assoc,
        structNames, List.forall_mem_cons]
      constructor
      · rintro ⟨known, fields, index, same, once, ofFields, indexOnce, ofIndex⟩
        exact ⟨fields, index, same, known, once, indexOnce, nofun, ofFields, ofIndex⟩
      · rintro ⟨fields, index, same, known, once, indexOnce, _, ofFields, ofIndex⟩
        exact ⟨known, fields, index, same, once, ofFields, indexOnce, ofIndex⟩
  | @array items values shown =>
      obtain ⟨inner, enters, shallow⟩ := Json.depth_array_le_iff.mp shallow
      have inside := below.inner enters
      simp only [StructIsSpelledBy, isRecord_array_iff, exists_eq_left, and_assoc]
      -- an array may leave out the index signature
      match shown with
      | .nil => simp [readStruct, bind_eq_ok_iff, positionMissing_ne_ok]
      | .cons first .nil =>
          rw [List.forall_mem_cons] at shallow
          simp only [readStruct, enter_bind_eq_ok_iff enters, bind_eq_ok_iff,
            reads_fields inside _ _ _ first shallow.1, positionsCut_closed, pure_eq_ok_iff]
          simp (disch := decide) only [List.zip_cons_cons, List.zip_nil_right, holds_cons_self,
            holdsUnless_cons_of_ne, holdsUnless_nil]
          constructor
          · rintro ⟨fields, ofFields, _, _, same⟩
            exact ⟨fields, none, same, by simp, ofFields, rfl⟩
          · rintro ⟨fields, _, same, _, ofFields, rfl⟩
            exact ⟨fields, ofFields, (), trivial, same⟩
      | .cons first (.cons second behind) =>
          rw [List.forall_mem_cons, List.forall_mem_cons] at shallow
          simp only [readStruct, enter_bind_eq_ok_iff enters, bind_eq_ok_iff,
            reads_fields inside _ _ _ first shallow.1,
            reads_index inside _ _ _ second shallow.2.1, positionsEnd_eq_ok_iff behind,
            pure_eq_ok_iff]
          simp (disch := decide) only [length_le_cons_iff, length_le_nil_iff, List.tail_cons,
            List.zip_cons_cons, holds_cons_self, holdsUnless_cons_self, holdsUnless_cons_of_ne]
          constructor
          · rintro ⟨fields, ofFields, index, ofIndex, _, isLast, same⟩
            exact ⟨fields, index, same, isLast, ofFields, ofIndex⟩
          · rintro ⟨fields, index, same, isLast, ofFields, ofIndex⟩
            exact ⟨fields, ofFields, index, ofIndex, (), isLast, same⟩
  | _ =>
      simp only [readStruct, wrongType_ne_ok, StructIsSpelledBy, false_iff]
      rintro ⟨_, _, _, _, ⟨⟩, _⟩

end WireSchema.SchemaDocument

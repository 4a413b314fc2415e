import WireSchema.Proofs.Json.Exchanging
import WireSchema.Proofs.SchemaDocument.Records
import WireSchema.SchemaDocument.Reader

/-! # Mistakes in schema documents

One schema inside a document is exchanged for something that is none. Whoever reads the document
enters the alternatives, records and arrays on the way as before, since nothing in front of the
mistake has changed, and fails where the schema stood. -/

namespace WireSchema.SchemaDocument

open Json (Written Piece Ending Location)
open Json.Written (Exchanged)

variable {α β : Type}

/-! ## (1) Spoilt runs -/

/-- A run **spoils** another one with an error: it fails with the error if the other one
succeeds. -/
def Spoils (error : Json.Located Problem) (before after : Reading α) : Prop :=
  ∀ value, before = .ok value → after = .error error

section Spoils

variable {error : Json.Located Problem} {location : Location}

/-- What never succeeds is spoilt by anything. -/
theorem spoils_of_ne_ok {before after : Reading α} (fails : ∀ value, before ≠ .ok value) :
    Spoils error before after := fun value succeeds => absurd succeeds (fails value)

/-- A spoilt run spoils what follows it. -/
theorem Spoils.bind {before after : Reading α} (spoils : Spoils error before after)
    (next next' : α → Reading β) : Spoils error (before >>= next) (after >>= next') := by
  intro result succeeds
  obtain ⟨value, succeeds, _⟩ := bind_eq_ok_iff.mp succeeds
  rw [spoils value succeeds]
  rfl

/-- A spoilt run stays spoilt when what it gives is changed. -/
theorem Spoils.map {before after : Reading α} (spoils : Spoils error before after)
    (change : α → β) : Spoils error (before.map change) (after.map change) := by
  intro result succeeds
  obtain ⟨value, succeeds, _⟩ := map_eq_ok_iff.mp succeeds
  rw [spoils value succeeds]
  rfl

/-- What is spoilt behind something is spoilt with it. -/
theorem spoils_next (first : Reading α) {next next' : α → Reading β}
    (spoils : ∀ value, Spoils error (next value) (next' value)) :
    Spoils error (first >>= next) (first >>= next') := by
  intro result succeeds
  obtain ⟨value, runs, succeeds⟩ := bind_eq_ok_iff.mp succeeds
  rw [runs]
  exact spoils value result succeeds

end Spoils

/-! ## (2) Members and items -/

/-- A tree of an array or an object. -/
def IsBracketed : Written → Prop
  | .array _ _ | .object _ _ => True
  | _ => False

/-- No colon is missed in front of an array or an object. -/
theorem colonBefore_of_isBracketed {value : Written} (bracketed : IsBracketed value) :
    Json.colonBefore value = .ok () := by
  cases value with
  | array => rfl
  | object => rfl
  | _ => exact bracketed.elim

section Parts

variable {error : Json.Located Problem} {location : Location} {value value' : Written}

/-- A member is entered as before if an array or an object has come into it. -/
theorem spoils_entered (bracketed : IsBracketed value') {name : String} {isRepeated : Bool}
    {next next' : Location → Reading β}
    (spoils : Spoils error (next (location ++ [.member name]))
      (next' (location ++ [.member name]))) :
    Spoils error (enterMember location name isRepeated value >>= next)
      (enterMember location name isRepeated value' >>= next') := by
  intro result succeeds
  cases isRepeated with
  | true => cases succeeds
  | false =>
      obtain ⟨inside, enters, succeeds⟩ := bind_eq_ok_iff.mp succeeds
      obtain ⟨_, _, same⟩ := bind_eq_ok_iff.mp enters
      cases same
      have entersToo : enterMember location name false value' =
          .ok (location ++ [.member name]) := by
        rw [enterMember, colonBefore_of_isBracketed bracketed]
        rfl
      rw [entersToo]
      exact spoils result succeeds

/-- A value that was not `null` is read as before if an array or an object has come into it. -/
theorem spoils_orNull (notNull : value ≠ .null) (bracketed : IsBracketed value')
    {otherwise otherwise' : Reading α} (spoils : Spoils error otherwise otherwise') :
    Spoils error (orNull location value otherwise) (orNull location value' otherwise') := by
  have otherwiseToo : orNull location value' otherwise' = otherwise'.map some := by
    cases value' with
    | array => rfl
    | object => rfl
    | _ => exact bracketed.elim
  rw [otherwiseToo]
  cases value with
  | null => exact absurd rfl notNull
  | misspeltNull _ => exact spoils_of_ne_ok nofun
  | _ => exact spoils.map some

/-- Items are read one after the other, up to the one that is spoilt. -/
theorem spoils_readEach (location : Location) (read : Location → Written → Reading α)
    {readEach : Nat → List Written → Reading (List α)}
    (onward : ∀ position item rest, readEach position (item :: rest) = do
      let value ← read (location ++ [.item position]) item
      let values ← readEach (position + 1) rest
      return value :: values)
    (front behind : List Written) {position : Nat}
    (spoils : Spoils error (read (location ++ [.item (position + front.length)]) value)
      (read (location ++ [.item (position + front.length)]) value')) :
    Spoils error (readEach position (front ++ value :: behind))
      (readEach position (front ++ value' :: behind)) := by
  induction front generalizing position with
  | nil =>
      rw [List.nil_append, List.nil_append, onward, onward]
      exact spoils.bind _ _
  | cons item front induction =>
      rw [List.cons_append, List.cons_append, onward, onward]
      refine spoils_next _ fun _ => (induction ?_).bind _ _
      rw [List.length_cons, Nat.add_comm front.length, ← Nat.add_assoc] at spoils
      exact spoils

/-- A reader of members **goes on** behind each of them: what follows a member is spoilt with what
is read behind it, whatever has been read before. -/
def GoesOn {σ : Type} (readAll : List (List Piece × Written) → σ → Reading α) : Prop :=
  ∀ error member others others',
    (∀ state, Spoils error (readAll others state) (readAll others' state)) →
      ∀ state, Spoils error (readAll (member :: others) state) (readAll (member :: others') state)

/-- The members in front of a mistake are read as before. -/
theorem GoesOn.append {σ : Type} {readAll : List (List Piece × Written) → σ → Reading α}
    (goesOn : GoesOn readAll) (front : List (List Piece × Written))
    {members members' : List (List Piece × Written)}
    (spoils : ∀ state, Spoils error (readAll members state) (readAll members' state)) (state : σ) :
    Spoils error (readAll (front ++ members) state) (readAll (front ++ members') state) := by
  induction front generalizing state with
  | nil => exact spoils state
  | cons member front induction => exact goesOn error member _ _ induction state

end Parts

/-! ## (3) Records -/

section Records

variable (levels : Nat) (place : Location) (ending : Ending)

/-- The reader of the members of a struct, with the state as one value. -/
def structMembers (members : List (List Piece × Written))
    (state : Option (List (Field SchemaDocument)) × Option (Option (IndexEntry SchemaDocument))) :
    Reading SchemaDocument :=
  readStructMembers levels place members ending state.1 state.2

/-- The reader of the members of an index signature, with the state as one value. -/
def indexMembers (members : List (List Piece × Written))
    (state : Option (Option LeafType) × Option SchemaDocument × Option Bool) :
    Reading (IndexEntry SchemaDocument) :=
  readIndexMembers levels place members ending state.1 state.2.1 state.2.2

/-- The reader of the members of a tuple, with the state as one value. -/
def tupleMembers (members : List (List Piece × Written))
    (state : Option (List (Element SchemaDocument)) × Option (Option SchemaDocument) ×
      Option Bool) : Reading SchemaDocument :=
  readTupleMembers levels place members ending state.1 state.2.1 state.2.2

/-- The reader of the members of an element, with the state as one value. -/
def elementMembers (members : List (List Piece × Written))
    (state : Option SchemaDocument × Option Bool) : Reading (Element SchemaDocument) :=
  readElementMembers levels place members ending state.1 state.2

/-- The reader of the members of a struct goes on behind each of them. -/
theorem goesOn_structMembers : GoesOn (structMembers levels place ending) := by
  rintro error ⟨pieces, value⟩ others others' spoils state
  rw [structMembers, structMembers, readStructMembers, readStructMembers]
  refine spoils_next _ fun name => ?_
  split
  · exact spoils_next _ fun _ => spoils_next _ fun fields => spoils (some fields, state.2)
  · exact spoils_next _ fun _ => spoils_next _ fun index => spoils (state.1, some index)
  · exact spoils_of_ne_ok nofun

/-- The reader of the members of a field goes on behind each of them. -/
theorem goesOn_fieldMembers :
    GoesOn fun members before => readFieldMembers levels place members ending before := by
  rintro error ⟨pieces, value⟩ others others' spoils before
  beta_reduce
  rw [readFieldMembers, readFieldMembers]
  refine spoils_next _ fun name => ?_
  split
  -- each of the six known members is one of the parts that are kept
  iterate 6 exact spoils_next _ fun _ => spoils_next _ fun _ => spoils _
  exact spoils_of_ne_ok nofun

/-- The reader of the members of an index signature goes on behind each of them. -/
theorem goesOn_indexMembers : GoesOn (indexMembers levels place ending) := by
  rintro error ⟨pieces, value⟩ others others' spoils state
  rw [indexMembers, indexMembers, readIndexMembers, readIndexMembers]
  refine spoils_next _ fun name => ?_
  split
  · exact spoils_next _ fun _ => spoils_next _ fun key => spoils (some key, state.2)
  · exact spoils_next _ fun _ => spoils_next _ fun type => spoils (state.1, some type, state.2.2)
  · exact spoils_next _ fun _ => spoils_next _ fun flag => spoils (state.1, state.2.1, some flag)
  · exact spoils_of_ne_ok nofun

/-- The reader of the members of a tuple goes on behind each of them. -/
theorem goesOn_tupleMembers : GoesOn (tupleMembers levels place ending) := by
  rintro error ⟨pieces, value⟩ others others' spoils state
  rw [tupleMembers, tupleMembers, readTupleMembers, readTupleMembers]
  refine spoils_next _ fun name => ?_
  split
  · exact spoils_next _ fun _ => spoils_next _ fun elements => spoils (some elements, state.2)
  · exact spoils_next _ fun _ => spoils_next _ fun rest => spoils (state.1, some rest, state.2.2)
  · exact spoils_next _ fun _ => spoils_next _ fun flag => spoils (state.1, state.2.1, some flag)
  · exact spoils_of_ne_ok nofun

/-- The reader of the members of an element goes on behind each of them. -/
theorem goesOn_elementMembers : GoesOn (elementMembers levels place ending) := by
  rintro error ⟨pieces, value⟩ others others' spoils state
  rw [elementMembers, elementMembers, readElementMembers, readElementMembers]
  refine spoils_next _ fun name => ?_
  split
  · exact spoils_next _ fun _ => spoils_next _ fun type => spoils (some type, state.2)
  · exact spoils_next _ fun _ => spoils_next _ fun flag => spoils (state.1, some flag)
  · exact spoils_of_ne_ok nofun

end Records

/-! ## (4) Mistakes -/

/-- **A mistake**: a schema is exchanged for an array or an object that cannot be read as one. -/
structure Mistake where
  /-- The schema. -/
  old : Written
  /-- What has come into its place. -/
  new : Written
  /-- Why this is no schema. -/
  problem : Problem
  /-- A schema has been there. -/
  old_ne_null : old ≠ .null
  /-- An array or an object has come into its place. -/
  isBracketed : IsBracketed new
  /-- Where the schema can be read, the problem is met. -/
  spoils : ∀ levels place,
    Spoils ⟨place, problem⟩ (readSchema levels place old) (readSchema levels place new)

section Mistakes

variable (mistake : Mistake) {location : Location}

/-- What a mistake is inside of remains an array or an object. -/
theorem Mistake.isBracketed_of_exchanged {value value' : Written}
    (exchanged : Exchanged mistake.old mistake.new location value value') :
    IsBracketed value' := by
  cases exchanged with
  | here => exact mistake.isBracketed
  | member => trivial
  | item => trivial

/-- A tree in which a mistake is made is not null. -/
theorem Mistake.ne_null_of_exchanged {value value' : Written}
    (exchanged : Exchanged mistake.old mistake.new location value value') : value ≠ .null := by
  cases exchanged with
  | here => exact mistake.old_ne_null
  | member => exact nofun
  | item => exact nofun

/-- **A reader meets a mistake** at a location inside of what it reads. -/
def Meets (read : Location → Written → Reading α) (location : Location) : Prop :=
  ∀ place value value', Exchanged mistake.old mistake.new location value value' →
    Spoils ⟨place ++ location, mistake.problem⟩ (read place value) (read place value')

/-- A mistake in an item is met by whoever reads all items. -/
theorem meets_item {readOne : Nat → Location → Written → Reading α}
    {readAll : Nat → Location → Written → Reading (List α)}
    {readEach : Nat → Location → Nat → List Written → Reading (List α)}
    (enters : ∀ levels place items ending, readAll levels place (.array items ending) = do
      let inner ← ofJson place (Json.enter levels)
      let values ← readEach inner place 0 items
      ofJson place (Json.arrayEnd ending)
      return values)
    (onward : ∀ levels place position item rest, readEach levels place position (item :: rest) = do
      let value ← readOne levels (place ++ [.item position]) item
      let values ← readEach levels place (position + 1) rest
      return value :: values)
    (meets : ∀ levels, Meets mistake (readOne levels) location) (position levels : Nat) :
    Meets mistake (readAll levels) (.item position :: location) := by
  rintro place _ _ (_ | _ | ⟨inside, front, behind, ending⟩)
  rw [enters, enters]
  refine spoils_next _ fun inner => Spoils.bind ?_ _ _
  refine spoils_readEach place (readOne inner) (onward inner place) front behind ?_
  rw [Nat.zero_add, List.append_cons]
  exact meets inner _ _ _ inside

/-- The reader of fields meets the mistakes in each field. -/
theorem meets_fields (meets : ∀ levels, Meets mistake (readField levels) location)
    (position levels : Nat) : Meets mistake (readFields levels) (.item position :: location) :=
  meets_item mistake (fun _ _ _ _ => by rw [readFields]) (fun _ _ _ _ _ => by rw [readFieldItems])
    meets position levels

/-- The reader of elements meets the mistakes in each element. -/
theorem meets_elements (meets : ∀ levels, Meets mistake (readElement levels) location)
    (position levels : Nat) : Meets mistake (readElements levels) (.item position :: location) :=
  meets_item mistake (fun _ _ _ _ => by rw [readElements])
    (fun _ _ _ _ _ => by rw [readElementItems]) meets position levels

/-- A mistake in a member is met by whoever reads all members, where the member is read as a part
of the record. -/
theorem meets_member {σ : Type} {name : String} {readOne : Nat → Location → Written → Reading α}
    {readAll : Nat → Location → Ending → List (List Piece × Written) → σ → Reading α}
    {readPart : Nat → Location → Written → Reading β} (start : σ) (isRead : σ → Bool)
    (keep : σ → β → σ)
    (enters : ∀ levels place members ending, readOne levels place (.object members ending) = do
      let inner ← ofJson place (Json.enter levels)
      readAll inner place ending members start)
    (goesOn : ∀ levels place ending, GoesOn (readAll levels place ending))
    (reads : ∀ levels place ending pieces value others state, Piece.text pieces = .ok name →
      readAll levels place ending ((pieces, value) :: others) state = do
        let inside ← enterMember place name (isRead state) value
        let part ← readPart levels inside value
        readAll levels place ending others (keep state part))
    (meets : ∀ levels, Meets mistake (readPart levels) location) (levels : Nat) :
    Meets mistake (readOne levels) (.member name :: location) := by
  rintro place _ _ (_ | ⟨spells, inside, front, behind, ending⟩ | _)
  rw [enters, enters]
  -- the members in front are read alike, whatever they leave as the state before the mistake
  refine spoils_next _ fun inner => (goesOn inner place ending).append front (fun state => ?_) start
  rw [reads _ _ _ _ _ _ _ spells, reads _ _ _ _ _ _ _ spells]
  refine spoils_entered (mistake.isBracketed_of_exchanged inside) ?_
  rw [List.append_cons]
  exact (meets inner _ _ _ inside).bind _ _

/-- A mistake in what may be `null` is met if it is met otherwise. -/
theorem meets_orNull {read : Location → Written → Reading α} (meets : Meets mistake read location) :
    Meets mistake (fun place value => orNull place value (read place value)) location := by
  intro place value value' exchanged
  exact spoils_orNull (mistake.ne_null_of_exchanged exchanged)
    (mistake.isBracketed_of_exchanged exchanged) (meets place value value' exchanged)

/-- The reader of a field meets the mistakes in its type. -/
theorem meets_field (meets : ∀ levels, Meets mistake (readSchema levels) location)
    (levels : Nat) : Meets mistake (readField levels) (.member "type" :: location) := by
  refine meets_member mistake ⟨none, none, none, none, none, none⟩
    (fun before => before.type.isSome) (fun before type => { before with type := some type })
    (fun _ _ _ _ => by rw [readField]) goesOn_fieldMembers
    (fun _ _ _ _ _ _ _ spells => ?_) meets levels
  rw [readFieldMembers, readName_eq_ok spells]
  rfl

/-- The reader of an index signature meets the mistakes in its value. -/
theorem meets_index (meets : ∀ levels, Meets mistake (readSchema levels) location)
    (levels : Nat) : Meets mistake (readIndex levels) (.member "type" :: location) := by
  refine meets_member mistake (none, none, none) (fun state => state.2.1.isSome)
    (fun state type => (state.1, some type, state.2.2)) (fun _ _ _ _ => by rw [readIndex]; rfl)
    goesOn_indexMembers (fun _ _ _ _ _ _ _ spells => ?_) meets levels
  rw [indexMembers, readIndexMembers, readName_eq_ok spells]
  rfl

/-- The reader of an element meets the mistakes in its type. -/
theorem meets_element (meets : ∀ levels, Meets mistake (readSchema levels) location)
    (levels : Nat) : Meets mistake (readElement levels) (.member "type" :: location) := by
  refine meets_member mistake (none, none) (fun state => state.1.isSome)
    (fun state type => (some type, state.2)) (fun _ _ _ _ => by rw [readElement]; rfl)
    goesOn_elementMembers (fun _ _ _ _ _ _ _ spells => ?_) meets levels
  rw [elementMembers, readElementMembers, readName_eq_ok spells]
  rfl

/-- The reader of a struct meets the mistakes in its fields. -/
theorem meets_struct_fields (meets : ∀ levels, Meets mistake (readFields levels) location)
    (levels : Nat) : Meets mistake (readStruct levels) (.member "fields" :: location) := by
  refine meets_member mistake (none, none) (fun state => state.1.isSome)
    (fun state fields => (some fields, state.2)) (fun _ _ _ _ => by rw [readStruct]; rfl)
    goesOn_structMembers (fun _ _ _ _ _ _ _ spells => ?_) meets levels
  rw [structMembers, readStructMembers, readName_eq_ok spells]
  rfl

/-- The reader of a struct meets the mistakes in its index signature. -/
theorem meets_struct_index (meets : ∀ levels, Meets mistake (readIndex levels) location)
    (levels : Nat) : Meets mistake (readStruct levels) (.member "index" :: location) := by
  refine meets_member mistake (none, none) (fun state => state.2.isSome)
    (fun state index => (state.1, some index)) (fun _ _ _ _ => by rw [readStruct]; rfl)
    goesOn_structMembers (fun _ _ _ _ _ _ _ spells => ?_)
    (fun levels => meets_orNull mistake (meets levels)) levels
  rw [structMembers, readStructMembers, readName_eq_ok spells]
  rfl

/-- The reader of a tuple meets the mistakes in its elements. -/
theorem meets_tuple_elements (meets : ∀ levels, Meets mistake (readElements levels) location)
    (levels : Nat) : Meets mistake (readTuple levels) (.member "elements" :: location) := by
  refine meets_member mistake (none, none, none) (fun state => state.1.isSome)
    (fun state elements => (some elements, state.2)) (fun _ _ _ _ => by rw [readTuple]; rfl)
    goesOn_tupleMembers (fun _ _ _ _ _ _ _ spells => ?_) meets levels
  rw [tupleMembers, readTupleMembers, readName_eq_ok spells]
  rfl

/-- The reader of a tuple meets the mistakes in its rest. -/
theorem meets_tuple_rest (meets : ∀ levels, Meets mistake (readSchema levels) location)
    (levels : Nat) : Meets mistake (readTuple levels) (.member "rest" :: location) := by
  refine meets_member mistake (none, none, none) (fun state => state.2.1.isSome)
    (fun state rest => (state.1, some rest, state.2.2)) (fun _ _ _ _ => by rw [readTuple]; rfl)
    goesOn_tupleMembers (fun _ _ _ _ _ _ _ spells => ?_)
    (fun levels => meets_orNull mistake (meets levels)) levels
  rw [tupleMembers, readTupleMembers, readName_eq_ok spells]
  rfl

/-- An alternative that is not the first member of its object cannot be read. -/
theorem readSchema_ne_ok_of_append {levels : Nat} {place : Location}
    (first : List Piece × Written) (front : List (List Piece × Written))
    (member : List Piece × Written) (behind : List (List Piece × Written)) (ending : Ending)
    (document : SchemaDocument) :
    readSchema levels place (.object (first :: front ++ member :: behind) ending) ≠
      .ok document := by
  -- whatever the first member holds, another one follows it
  have cannotEnd : ∀ content : Reading SchemaDocument, (do
      let document ← content
      variantEnd place (front ++ member :: behind) ending
      return document) ≠ .ok document := by
    intro content succeeds
    obtain ⟨_, _, succeeds⟩ := bind_eq_ok_iff.mp succeeds
    obtain ⟨_, ends, _⟩ := bind_eq_ok_iff.mp succeeds
    cases front <;> cases ends
  intro succeeds
  rw [List.cons_append, readSchema] at succeeds
  obtain ⟨_, _, succeeds⟩ := bind_eq_ok_iff.mp succeeds
  obtain ⟨_, _, succeeds⟩ := bind_eq_ok_iff.mp succeeds
  obtain ⟨_, _, succeeds⟩ := bind_eq_ok_iff.mp succeeds
  split at succeeds <;> exact cannotEnd _ succeeds

/-- A mistake in an alternative is met by whoever reads what its name stands for. -/
theorem meets_alternative {name : String}
    {readContent : Nat → Location → Written → Reading SchemaDocument}
    (enters : ∀ levels place pieces content others ending, Piece.text pieces = .ok name →
      readSchema levels place (.object ((pieces, content) :: others) ending) = do
        let inner ← ofJson place (Json.enter levels)
        let inside ← enterMember place name false content
        let document ← readContent inner inside content
        variantEnd place others ending
        return document)
    (meets : ∀ levels, Meets mistake (readContent levels) location) (levels : Nat) :
    Meets mistake (readSchema levels) (.member name :: location) := by
  rintro place _ _ (_ | ⟨spells, inside, _ | ⟨first, front⟩, behind, ending⟩ | _)
  · rw [List.nil_append, List.nil_append, enters _ _ _ _ _ _ spells, enters _ _ _ _ _ _ spells]
    refine spoils_next _ fun inner =>
      spoils_entered (mistake.isBracketed_of_exchanged inside) (Spoils.bind ?_ _ _)
    rw [List.append_cons]
    exact meets inner _ _ _ inside
  · exact spoils_of_ne_ok (readSchema_ne_ok_of_append first front _ behind ending)

/-- A known name of an alternative is read. -/
theorem readVariant_eq_ok {known : List String} {pieces : List Piece} {name : String}
    (spells : Piece.text pieces = .ok name) (isKnown : name ∈ known) :
    readVariant location known pieces = .ok name :=
  (readVariant_eq_ok_iff spells).mpr ⟨isKnown, rfl⟩

/-- An unknown name of an alternative is reported. -/
theorem readVariant_of_notMem {known : List String} {pieces : List Piece} {name : String}
    (spells : Piece.text pieces = .ok name) (unknown : name ∉ known) :
    readVariant location known pieces = fail location (.unknownVariant name known) := by
  have notKnown : known.contains name = false := by simpa using unknown
  rw [readVariant, spells]
  simp only [ofJson, Except.mapError, ok_bind, notKnown, Bool.false_eq_true, if_false]

/-- The reader of schemas meets the mistakes in a struct. -/
theorem meets_schema_struct (meets : ∀ levels, Meets mistake (readStruct levels) location)
    (levels : Nat) : Meets mistake (readSchema levels) (.member "struct" :: location) := by
  refine meets_alternative mistake (fun _ _ _ _ _ _ spells => ?_) meets levels
  rw [readSchema, readVariant_eq_ok spells (by decide)]
  rfl

/-- The reader of schemas meets the mistakes in a tuple. -/
theorem meets_schema_tuple (meets : ∀ levels, Meets mistake (readTuple levels) location)
    (levels : Nat) : Meets mistake (readSchema levels) (.member "tuple" :: location) := by
  refine meets_alternative mistake (fun _ _ _ _ _ _ spells => ?_) meets levels
  rw [readSchema, readVariant_eq_ok spells (by decide)]
  rfl

end Mistakes

end WireSchema.SchemaDocument

import WireSchema.Proofs.SchemaDocument.Grammar
import WireSchema.Proofs.Members.Insertion
import WireSchema.SchemaDocument.Record
import WireSchema.SchemaDocument.Skipped

/-! # Reading alternatives and records

A reader **reads** what a grammar spells when it succeeds on exactly the documents of the grammar
and gives what they spell. Plain values, alternatives and both forms of records are read so, given
that their parts are. The members of a record in its object form come in any order, so what is said
about them is said about the values under each name (`Settles`). -/

namespace WireSchema.SchemaDocument

open Json (Written Piece Location)
open Json.Written (Shows ShowItems ShowMembers)
open Members

variable {α β : Type} {levels : Nat} {location : Location}

/-! ## (1) Readers -/

/-- **A reader reads what is spelled**: on a tree that shows a document, nested within some levels,
it gives what the document spells, and fails if the document spells nothing. -/
def Reads (levels : Nat) (read : Location → Written → Reading α)
    (isSpelledBy : α → Json → Prop) : Prop :=
  ∀ location written json, Shows written json → json.depth ≤ levels →
    ∀ value, read location written = .ok value ↔ isSpelledBy value json

/-- What JSON gives is given on, whatever place its errors get. -/
theorem ofJson_eq_ok_iff {result : Except Json.SyntaxError α} {value : α} :
    ofJson location result = .ok value ↔ result = .ok value := mapError_eq_ok_iff

/-- A tree of the wrong type gives nothing. -/
theorem wrongType_ne_ok (written : Written) (expected : String) (value : α) :
    wrongType location written expected ≠ .ok value := by
  intro succeeds
  obtain ⟨_, _, fails⟩ := bind_eq_ok_iff.mp succeeds
  cases fails

/-- Texts are read as they are spelled. -/
theorem reads_text : Reads levels readText TextIsSpelledBy := by
  intro location written json shown _ text
  cases shown with
  | string spells => simp [readText, ofJson_eq_ok_iff, spells, TextIsSpelledBy]
  | _ => simp [readText, wrongType_ne_ok, TextIsSpelledBy]

/-- Flags are read as they are spelled. -/
theorem reads_flag : Reads levels readFlag FlagIsSpelledBy := by
  intro location written json shown _ flag
  cases shown with
  | bool value => simp [readFlag, FlagIsSpelledBy]
  | _ => simp [readFlag, wrongType_ne_ok, FlagIsSpelledBy]

/-- What may be `null` is read when what it is otherwise is read and is never `null`. -/
theorem reads_orNull {read : Location → Written → Reading α} {isSpelledBy : α → Json → Prop}
    (reads : Reads levels read isSpelledBy) (notNull : ∀ value, ¬isSpelledBy value .null) :
    Reads levels (fun location written => orNull location written (read location written))
      (OrNull isSpelledBy) := by
  intro location written json shown shallow result
  by_cases isNull : json = .null
  · subst isNull
    cases shown
    cases result with
    | none => simp [orNull, OrNull]
    | some value => simp [orNull, OrNull, notNull]
  · have otherwise : orNull location written (read location written) =
        (read location written).map some := by
      cases shown <;> first | rfl | exact absurd rfl isNull
    simp only [otherwise, map_eq_ok_iff]
    cases result with
    | none => simp [OrNull, isNull]
    | some value => simp [OrNull, reads _ _ _ shown shallow]

/-- Annotations are read as they are spelled. -/
theorem reads_annotations : Reads levels (readAnnotations levels) AnnotationsAreSpelledBy := by
  intro location written json shown shallow annotations
  cases shown with
  | @object members values shown =>
      obtain ⟨inner, enters, shallow⟩ := Json.depth_object_le_iff.mp shallow
      have read := Json.readMembers_eq_ok
        (fun value member => Json.isReadAt_of_depth_le (shallow value member)) location shown []
      simp only [readAnnotations, enters, bind_eq_ok_iff, ofJson_eq_ok_iff, mapError_eq_ok_iff,
        pure_eq_ok_iff, read, Json.objectEnd, Except.ok.injEq, exists_eq_left', exists_const,
        true_and]
      simp [AnnotationsAreSpelledBy, Json.resolved, ofList]
  | _ => simp [readAnnotations, wrongType_ne_ok, AnnotationsAreSpelledBy, Json.resolved]

/-! ## (2) Skipped values -/

/-- The end of a text that can be read can be found. -/
theorem skipError?_eq_none {pieces : List Piece} {text : List Char}
    (spells : Piece.decode pieces = .ok text) : Piece.skipError? pieces = none := by
  -- an escape that is one half of a pair takes the other one with it
  fun_induction Piece.decode pieces generalizing text with
  | case1 => rfl
  | case6 c rest induction =>
      obtain ⟨_, spells, _⟩ := map_eq_ok_iff.mp spells
      exact induction spells
  | case8 _ _ _ _ _ _ induction =>
      obtain ⟨_, spells, _⟩ := map_eq_ok_iff.mp spells
      exact induction spells
  | case13 _ _ _ _ induction =>
      obtain ⟨_, spells, _⟩ := map_eq_ok_iff.mp spells
      exact induction spells
  | _ => cases spells

/-- A text that spells something can be skipped. -/
theorem skipText_eq_ok {pieces : List Piece} {text : String}
    (spells : Piece.text pieces = .ok text) : skipText pieces = .ok () := by
  obtain ⟨_, spells, _⟩ := map_eq_ok_iff.mp spells
  rw [skipText, skipError?_eq_none spells]

/-- What shows a document can be skipped, however deeply it is nested. -/
theorem skip_eq_ok {written : Written} {json : Json} (shown : Shows written json) :
    skip written = .ok () := by
  induction json using Json.induction generalizing written with
  | string value =>
      cases shown with | string spells
      exact skipText_eq_ok spells
  | array values each =>
      cases shown with | @array items _ shown
      -- the items are walked along the documents they show
      have skips : skipItems items = .ok () := by
        induction values generalizing items with
        | nil =>
            cases shown
            rfl
        | cons value rest induction =>
            cases shown with | cons first others
            rw [List.forall_mem_cons] at each
            rw [skipItems, each.1 first, ok_bind, induction each.2 others]
      rw [skip, skips]
      rfl
  | object values each =>
      cases shown with | @object members _ shown
      have skips : skipMembers members = .ok () := by
        induction values generalizing members with
        | nil =>
            cases shown
            rfl
        | cons value rest induction =>
            cases shown with | cons spells first others
            rw [List.forall_mem_cons] at each
            rw [skipMembers, skipText_eq_ok spells, ok_bind, each.1 first, ok_bind,
              induction each.2 others]
      rw [skip, skips]
      rfl
  | _ =>
      cases shown
      rfl

/-! ## (3) Alternatives -/

/-- An object is an alternative without content exactly if its only member is the name with null. -/
theorem isUnitVariant_object_iff {name own : String} {content : Json}
    {rest : List (String × Json)} :
    IsUnitVariant own (.object ((name, content) :: rest)) ↔
      name = own ∧ content = .null ∧ rest = [] := by
  simp [IsUnitVariant, and_assoc]

/-- An object is an alternative exactly if its only member is the name with the content. -/
theorem isVariant_object_iff {name own : String} {content : Json} {rest : List (String × Json)}
    {isContent : Json → Prop} :
    IsVariant own isContent (.object ((name, content) :: rest)) ↔
      name = own ∧ isContent content ∧ rest = [] := by
  simp only [IsVariant, Json.object.injEq, List.cons.injEq, Prod.mk.injEq]
  constructor
  · rintro ⟨_, ⟨⟨isOwn, rfl⟩, isLast⟩, holds⟩
    exact ⟨isOwn, holds, isLast⟩
  · rintro ⟨isOwn, holds, isLast⟩
    exact ⟨content, ⟨⟨isOwn, rfl⟩, isLast⟩, holds⟩

/-- The name of an alternative is read exactly if it is known. -/
theorem readVariant_eq_ok_iff {known : List String} {pieces : List Piece} {name : String}
    (spells : Piece.text pieces = .ok name) {result : String} :
    readVariant location known pieces = .ok result ↔ name ∈ known ∧ name = result := by
  simp only [readVariant, spells, bind_eq_ok_iff, ofJson_eq_ok_iff, Except.ok.injEq,
    exists_eq_left']
  by_cases isKnown : name ∈ known
  · simp [isKnown, pure_eq_ok_iff]
  · simp [isKnown, fail]

/-- An object without members gives no alternative. -/
theorem noVariant_closed_ne_ok (value : α) : noVariant location .closed ≠ .ok value := nofun

/-- An alternative that misses its content gives nothing. -/
theorem contentMissing_ne_ok (name content : String) (value : α) :
    contentMissing location name content ≠ .ok value := nofun

/-- A tree that is neither a string nor an object gives no alternative. -/
theorem notVariant_ne_ok (written : Written) (value : α) :
    notVariant location written ≠ .ok value := by
  unfold notVariant
  split <;> exact nofun

/-- No other member follows an alternative. -/
theorem variantEnd_eq_ok_iff {others : List (List Piece × Written)} {rest : List (String × Json)}
    (shown : ShowMembers others rest) {result : Unit} :
    variantEnd location others .closed = .ok result ↔ rest = [] := by
  cases shown <;> simp [variantEnd, fail]

/-- A member is entered exactly if its name stands there for the first time. -/
theorem enterMember_eq_ok_iff {name : String} {isRepeated : Bool} {written : Written} {json : Json}
    (shown : Shows written json) {inside : Location} :
    enterMember location name isRepeated written = .ok inside ↔
      isRepeated = false ∧ location ++ [.member name] = inside := by
  cases isRepeated with
  | true => simp [enterMember, fail]
  | false =>
      simp only [enterMember, Bool.false_eq_true, if_false, Json.colonBefore_of_shows shown,
        bind_eq_ok_iff, ofJson_eq_ok_iff, pure_eq_ok_iff, exists_const, true_and]

/-- One level further in, there is less depth left. -/
theorem lt_of_enter {inner : Nat} (enters : Json.enter levels = .ok inner) : inner < levels := by
  cases levels with
  | zero => cases enters
  | succ levels =>
      cases enters
      exact Nat.lt_succ_self _

/-- Where there is a level left, what is inside is read in the levels below it. -/
theorem enter_bind_eq_ok_iff {inner : Nat} (enters : Json.enter levels = .ok inner)
    {next : Nat → Reading α} {result : α} :
    (ofJson location (Json.enter levels) >>= next) = .ok result ↔ next inner = .ok result := by
  rw [enters]
  rfl

/-- **An alternative is entered** when its name is known. -/
theorem readAlternative_eq_ok_iff {known : List String} {pieces : List Piece} {name : String}
    (spells : Piece.text pieces = .ok name) {written : Written} {content : Json}
    (shown : Shows written content) {inner : Nat} (enters : Json.enter levels = .ok inner)
    {next : Nat → String → Location → Reading α} {result : α} :
    (do
      let inner ← ofJson location (Json.enter levels)
      let name ← readVariant location known pieces
      let inside ← enterMember location name false written
      next inner name inside) = .ok result ↔
      name ∈ known ∧ next inner name (location ++ [.member name]) = .ok result := by
  simp only [enter_bind_eq_ok_iff enters, bind_eq_ok_iff, readVariant_eq_ok_iff spells,
    enterMember_eq_ok_iff shown]
  simp

/-- An alternative is left when its content has been read and nothing follows. -/
theorem leaveAlternative_eq_ok_iff {others : List (List Piece × Written)}
    {rest : List (String × Json)} (shown : ShowMembers others rest) {content : Reading α}
    {result : α} :
    (do
      let value ← content
      variantEnd location others .closed
      return value) = .ok result ↔ content = .ok result ∧ rest = [] := by
  simp only [bind_eq_ok_iff, variantEnd_eq_ok_iff shown, pure_eq_ok_iff]
  simp [and_comm]

/-- The content of an alternative without one is read exactly if it is null. -/
theorem readUnit_eq_ok_iff {written : Written} {json : Json} (shown : Shows written json)
    {result : Unit} : readUnit location written = .ok result ↔ json = .null := by
  cases shown <;> simp [readUnit, wrongType_ne_ok]

/-! ## (4) Records in their object form -/

/-- The name of a member is read as the text that it spells. -/
theorem readName_eq_ok {pieces : List Piece} {name : String}
    (spells : Piece.text pieces = .ok name) : readName location pieces = .ok name := by
  rw [readName, spells]
  rfl

/-- A closed record ends well. -/
theorem recordEnd_closed : recordEnd location .closed = .ok () := rfl

/-- The values under a name **settle** a value, given what has been read for the name before: either
there are none and the value is what has been read, or its default if that is nothing; or there is
one, it spells the value, and nothing has been read before. -/
def Settles (isSpelledBy : α → Json → Prop) (isDefault : α → Prop) :
    Option α → List Json → α → Prop
  | some read, [], value => value = read
  | none, [], value => isDefault value
  | before, json :: rest, value =>
      before = none ∧ ∃ read, isSpelledBy read json ∧
        Settles isSpelledBy isDefault (some read) rest value

section Settles

variable {isSpelledBy : α → Json → Prop} {isDefault : α → Prop} {members : List (String × Json)}
  {name : String}

/-- A value in front settles what follows exactly if nothing has been read before and it spells what
counts as read then. -/
theorem settles_cons_iff {before : Option α} {json : Json} {rest : List Json} {value : α} :
    Settles isSpelledBy isDefault before (json :: rest) value ↔
      before = none ∧ ∃ read, isSpelledBy read json ∧
        Settles isSpelledBy isDefault (some read) rest value := by
  rw [Settles]

/-- A required member has been read at the end. -/
theorem required_eq_ok_iff (isSpelledBy : α → Json → Prop) {before : Option α} {value : α} :
    required location name before = .ok value ↔
      Settles isSpelledBy (fun _ => False) before [] value := by
  cases before <;> simp [required, Settles, fail, eq_comm]

/-- Another member has its default at the end, unless it has been read. -/
theorem settles_nil_iff {default value : α} {before : Option α} :
    Settles isSpelledBy (· = default) before [] value ↔ before.getD default = value := by
  cases before <;> simp [Settles, eq_comm]

/-- No members have no values under a name. -/
theorem valuesOf_nil : valuesOf [] name = [] := rfl

/-- The first member adds its value where it has the name. -/
theorem valuesOf_cons {key : String} {json : Json} {rest : List (String × Json)} :
    valuesOf ((key, json) :: rest) name =
      if key = name then json :: valuesOf rest name else valuesOf rest name := by
  by_cases same : key = name <;> simp [valuesOf, same]

/-- There are as many values under a name as the keys repeat it. -/
theorem length_valuesOf : (valuesOf members name).length = (keys members).count name := by
  induction members with
  | nil => rfl
  | cons member rest induction =>
      obtain ⟨key, json⟩ := member
      by_cases same : key = name
      · subst same
        rw [valuesOf_cons, if_pos rfl, List.length_cons, induction, keys_cons,
          List.count_cons_self]
      -- a member of another name counts for neither
      · rw [valuesOf_cons, if_neg same, induction, keys_cons, List.count_cons_of_ne same]

/-- The first value under a name is the one that is found. -/
theorem head?_valuesOf : (valuesOf members name).head? = find? members name := by
  induction members with
  | nil => rfl
  | cons member rest induction =>
      obtain ⟨key, json⟩ := member
      by_cases same : key = name
      · rw [valuesOf_cons, if_pos same, find?_cons, if_pos same, List.head?_cons]
      · rw [valuesOf_cons, if_neg same, induction, find?_cons, if_neg same]

/-- What the values under a name settle from the start: there is at most one of them, and it spells
the value, or there is none and the value is the default. -/
theorem settles_none_iff {value : α} :
    Settles isSpelledBy isDefault none (valuesOf members name) value ↔
      (valuesOf members name).length ≤ 1 ∧
        HoldsUnless members name (isDefault value) (isSpelledBy value) := by
  rw [HoldsUnless, ← head?_valuesOf]
  match valuesOf members name with
  | [] => simp [Settles]
  | [json] => simp [Settles]
  | _ :: _ :: _ => simp [Settles]

/-- A member without a default has to be there. -/
theorem holdsUnless_false_iff {content : Json → Prop} :
    HoldsUnless members name False content ↔ Holds members name content := by
  rw [HoldsUnless, Holds]
  cases find? members name <;> simp

end Settles

/-- A record in its object form: all names are known, and under each there is at most one value. -/
theorem isRecord_object_iff {names : List String} {values members : List (String × Json)} :
    IsRecord names (.object values) members ↔ members = values ∧
      (∀ name ∈ keys values, name ∈ names) ∧
        ∀ name ∈ names, (valuesOf values name).length ≤ 1 := by
  constructor
  · rintro (⟨distinct, known⟩ | _)
    refine ⟨rfl, known, fun name _ => ?_⟩
    rw [length_valuesOf]
    exact List.nodup_iff_count_le_one.mp distinct name
  · rintro ⟨rfl, known, single⟩
    refine .object (List.nodup_iff_count_le_one.mpr fun name => ?_) known
    by_cases present : name ∈ keys members
    · rw [← length_valuesOf]
      exact single name (known name present)
    · rw [List.count_eq_zero_of_not_mem present]
      exact Nat.zero_le 1

/-- **One member of a record is read** if none of its name has been read before. -/
theorem readMember_eq_ok_iff {read : Location → Written → Reading α}
    {isSpelledBy : α → Json → Prop} (reads : Reads levels read isSpelledBy) {written : Written}
    {json : Json} (shown : Shows written json) (shallow : json.depth ≤ levels) {name : String}
    {before : Option α} {next : α → Reading β} {result : β} :
    (do
      let inside ← enterMember location name before.isSome written
      let value ← read inside written
      next value) = .ok result ↔
      before = none ∧ ∃ value, isSpelledBy value json ∧ next value = .ok result := by
  simp only [bind_eq_ok_iff, enterMember_eq_ok_iff shown, reads _ _ _ shown shallow]
  simp [Option.isSome_eq_false_iff]

/-! ## (5) Records in their array form -/

/-- An array is a record exactly if it has no more items than there are names, which they take in
order. -/
theorem isRecord_array_iff {names : List String} {items : List Json}
    {members : List (String × Json)} :
    IsRecord names (.array items) members ↔
      members = names.zip items ∧ items.length ≤ names.length := by
  constructor
  · rintro (_ | fits)
    exact ⟨rfl, fits⟩
  · rintro ⟨rfl, fits⟩
    exact .array fits

/-- Closed positions end well. -/
theorem positionsCut_closed : positionsCut location .closed = .ok () := rfl

/-- The trees behind the first one show the documents behind the first one. -/
theorem shows_tail {items : List Written} {values : List Json} (shown : ShowItems items values) :
    ShowItems items.tail values.tail := by
  cases shown with
  | nil => exact .nil
  | cons first rest => exact rest

section Positions

variable {names : List String} {name : String} {items : List Json} {isDefault : Prop}
  {content : Json → Prop}

/-- Without members, a member has its default. -/
@[simp] theorem holdsUnless_nil : HoldsUnless [] name isDefault content ↔ isDefault := Iff.rfl

/-- Without members, no member is there. -/
@[simp] theorem holds_nil : ¬Holds [] name content := nofun

/-- Under the name of the first member stands its value, default or not. -/
@[simp] theorem holdsUnless_cons_self {json : Json} {rest : List (String × Json)} :
    HoldsUnless ((name, json) :: rest) name isDefault content ↔ content json := by
  rw [HoldsUnless, find?_cons, if_pos rfl]

/-- Under the name of the first member stands its value. -/
@[simp] theorem holds_cons_self {json : Json} {rest : List (String × Json)} :
    Holds ((name, json) :: rest) name content ↔ content json := by
  simp [Holds, find?_cons]

/-- A first member of another name does not matter, default or not. -/
theorem holdsUnless_cons_of_ne {key : String} (different : key ≠ name) {json : Json}
    {rest : List (String × Json)} :
    HoldsUnless ((key, json) :: rest) name isDefault content ↔
      HoldsUnless rest name isDefault content := by
  rw [HoldsUnless, find?_cons, if_neg different, HoldsUnless]

/-- A first member of another name does not matter. -/
theorem holds_cons_of_ne {key : String} (different : key ≠ name) {json : Json}
    {rest : List (String × Json)} :
    Holds ((key, json) :: rest) name content ↔ Holds rest name content := by
  rw [Holds, find?_cons, if_neg different, Holds]

/-- The members behind the first one are those at the positions behind the first one. -/
theorem holdsUnless_zip_of_ne {key : String} (different : key ≠ name) :
    HoldsUnless ((key :: names).zip items) name isDefault content ↔
      HoldsUnless (names.zip items.tail) name isDefault content := by
  cases items with
  | nil => simp
  | cons item rest => exact holdsUnless_cons_of_ne different

/-- The items fit when those behind the first one do. -/
theorem length_le_cons_iff : items.length ≤ (name :: names).length ↔
    items.tail.length ≤ names.length := by
  rw [List.length_tail, List.length_cons]
  omega

/-- Items without names are none. -/
theorem length_le_nil_iff : items.length ≤ ([] : List String).length ↔ items = [] := by
  rw [List.length_nil, Nat.le_zero, List.length_eq_zero_iff]

end Positions

/-- **The member at the first position is read**, or has its default if there are no items. -/
theorem readPosition_eq_ok_iff {read : Location → Written → Reading α}
    {isSpelledBy : α → Json → Prop} (reads : Reads levels read isSpelledBy) {items : List Written}
    {values : List Json} (shown : ShowItems items values)
    (shallow : ∀ value ∈ values, value.depth ≤ levels) {position : Nat} {default : α}
    {next : α × List Written → Reading β} {result : β} (name : String) (names : List String) :
    (readPosition location .closed position default read items >>= next) = .ok result ↔
      ∃ value, HoldsUnless ((name :: names).zip values) name (value = default)
        (isSpelledBy value) ∧ next (value, items.tail) = .ok result := by
  cases shown with
  | nil =>
      simp [readPosition, positionsCut_closed, ok_bind]
  | cons first rest =>
      simp only [readPosition, bind_eq_ok_iff, pure_eq_ok_iff,
        reads _ _ _ first (shallow _ List.mem_cons_self)]
      simp

/-- No items are left at the end. -/
theorem positionsEnd_eq_ok_iff {items : List Written} {values : List Json}
    (shown : ShowItems items values) {result : Unit} :
    positionsEnd location items .closed = .ok result ↔ values = [] := by
  cases shown <;> simp [positionsEnd, fail]

/-- A missing position gives nothing. -/
theorem positionMissing_ne_ok (position : Nat) (expected : String) (value : α) :
    positionMissing location .closed position expected ≠ .ok value := nofun

/-! ## (6) Arrays of parts -/

/-- **The items of an array are read**, each at its position, when a reader of one item is used on
one after the other. -/
theorem readEach_eq_ok_iff {read : Location → Written → Reading α} {isSpelledBy : α → Json → Prop}
    (reads : Reads levels read isSpelledBy) {readEach : Nat → List Written → Reading (List α)}
    (atEnd : ∀ position, readEach position [] = .ok [])
    (onward : ∀ position item rest, readEach position (item :: rest) = do
      let value ← read (location ++ [.item position]) item
      let values ← readEach (position + 1) rest
      return value :: values)
    {items : List Written} {values : List Json} (shown : ShowItems items values)
    (shallow : ∀ value ∈ values, value.depth ≤ levels) {position : Nat} {parts : List α} :
    readEach position items = .ok parts ↔ List.Forall₂ isSpelledBy parts values := by
  induction values generalizing items position parts with
  | nil =>
      cases shown
      rw [atEnd, List.forall₂_nil_right_iff]
      exact ⟨fun same => (Except.ok.inj same).symm, fun isEmpty => isEmpty ▸ rfl⟩
  | cons value rest induction =>
      cases shown with | cons first others
      rw [List.forall_mem_cons] at shallow
      simp only [onward, bind_eq_ok_iff, reads _ _ _ first shallow.1, induction others shallow.2,
        pure_eq_ok_iff, List.forall₂_cons_right_iff]
      simp [eq_comm]

end WireSchema.SchemaDocument

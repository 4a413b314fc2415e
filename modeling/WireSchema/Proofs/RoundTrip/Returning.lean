import WireSchema.Proofs.Renaming.Crossing
import WireSchema.Proofs.Renaming.Meeting
import WireSchema.Proofs.RoundTrip.Tidying
import WireSchema.Proofs.Value.SameUpToOrder

/-! # There and back

What a documented schema with its renames applied carries over in a direction comes back in the
other one, tidied, as soon as its conversions bring back what they have carried over (`returns`). A
struct crosses by one translation of members, so that there and back are two translations of which
the second reads what the first has written. -/

namespace WireSchema.Schema

open Members Value

variable {direction : Direction} {stamp : Value → Value}

/-- What has crossed a type comes back, up to order and tidied. -/
def Returns (direction : Direction) (stamp : Value → Value) (type : Schema) (value : Value) :
    Prop :=
  ∀ written, type.renamed.outcome? direction value = some written →
    ∃ back, type.renamed.outcome? direction.opposite written = some back ∧
      SameUpToOrder back (type.tidied direction.inputSide stamp value)

/-- Leaves leave everything as it is. -/
theorem returns_leaf (kind : LeafType) (value : Value) :
    Returns direction stamp (.leaf kind) value := by
  intro written crosses
  rw [renamed_leaf, outcome?_leaf] at crosses
  cases crosses
  exact ⟨value, by rw [renamed_leaf, outcome?_leaf], by rw [tidied_leaf]; exact .refl value⟩

/-! ## (1) Structs -/

section Structs

variable {fields : List (Field Schema)} {index : Option (IndexSignature Schema)}
  {members outputs : List (String × Value)}

/-- What a field makes of a value there and back. -/
def thereAndBack (direction : Direction) : Field Schema → Value → Option Value :=
  thenPart (renamedPart direction) (renamedPart direction.opposite)

/-- What an index type makes of a value there and back. -/
def openThereAndBack (direction : Direction) : IndexSignature Schema → Value → Option Value :=
  thenPart (renamedOpenPart direction) (renamedOpenPart direction.opposite)

/-- Crossing back is one translation of the members under the names that they bear. -/
theorem cross?_opposite (distinct : (namesOn direction.inputSide.opposite fields).Nodup)
    (crosses : cross? direction fields index members = some outputs) :
    cross? direction.opposite fields index outputs =
      translate? (fields.map (fieldRule ((Renames.ofFields fields).nameOn direction.inputSide)
        ((Renames.ofFields fields).nameOn direction.inputSide) (thereAndBack direction)))
        (index.map (openThereAndBack direction)) members := by
  rw [cross?, Direction.inputSide_opposite, Side.opposite_opposite]
  exact translate?_fieldRule _ _ _ distinct crosses

/-- What comes back from a type is the tidied value. -/
theorem Returns.exists_back {type : Schema} {value : Value}
    (returns : Returns direction stamp type value)
    (crosses : (type.renamed.outcome? direction value).isSome) :
    ∃ back, (type.renamed.outcome? direction value).bind
        (type.renamed.outcome? direction.opposite) = some back ∧
      SameUpToOrder back (type.tidied direction.inputSide stamp value) := by
  obtain ⟨written, there⟩ := Option.isSome_iff_exists.mp crosses
  obtain ⟨back, andBack, same⟩ := returns written there
  exact ⟨back, by rw [there, Option.bind_some, andBack], same⟩

variable (distinct : ∀ side, (namesOn side fields).Nodup) (unique : (keys members).Nodup)
  (crosses : cross? direction fields index members = some outputs)
  (declaredReturn : ∀ field ∈ fields, ∀ value,
    find? members ((Renames.ofFields fields).nameOn direction.inputSide field.name) = some value →
      Returns direction stamp field.type value)
  (othersReturn : ∀ signature ∈ index, ∀ key ∉ namesOn direction.inputSide fields, ∀ value,
    find? members key = some value → Returns direction stamp signature.value value)

include crosses declaredReturn in
/-- The value of a declared member comes back. -/
theorem exists_thereAndBack {field : Field Schema} (held : field ∈ fields) {value : Value}
    (found : find? members ((Renames.ofFields fields).nameOn direction.inputSide field.name) =
      some value) :
    ∃ back, thereAndBack direction field value = some back ∧
      SameUpToOrder back (field.type.tidied direction.inputSide stamp value) :=
  (declaredReturn field held value found).exists_back
    (Rule.isSome_part_of_admits (admits_of_translate? crosses (List.mem_map_of_mem held)) found)

include crosses othersReturn in
/-- The value of an undeclared member of an open struct comes back. -/
theorem exists_openThereAndBack {signature : IndexSignature Schema} (isOpen : signature ∈ index)
    {key : String} (undeclared : key ∉ namesOn direction.inputSide fields) {value : Value}
    (found : find? members key = some value) :
    ∃ back, openThereAndBack direction signature value = some back ∧
      SameUpToOrder back (signature.value.tidied direction.inputSide stamp value) := by
  refine (othersReturn signature isOpen key undeclared value found).exists_back ?_
  refine (undeclared_of_translate? crosses (Option.mem_map_of_mem _ isOpen) (mem_of_find? found)
    ?_).2
  rw [readNames_fieldRule]
  exact undeclared

include unique crosses declaredReturn othersReturn in
/-- The members come back. -/
theorem exists_translated_back :
    ∃ backs, translate? (fields.map (fieldRule
      ((Renames.ofFields fields).nameOn direction.inputSide)
      ((Renames.ofFields fields).nameOn direction.inputSide) (thereAndBack direction)))
      (index.map (openThereAndBack direction)) members = some backs := by
  refine Option.isSome_iff_exists.mp ((translate?_isSome_iff _ _ _).mpr ⟨?_, ?_⟩)
  · refine List.forall_mem_map.mpr ?_
    intro field held
    have admits := admits_of_translate? crosses (List.mem_map_of_mem held)
    rw [Rule.Admits] at admits ⊢
    simp only [read_fieldRule, part_fieldRule] at admits ⊢
    cases found : find? members
        ((Renames.ofFields fields).nameOn direction.inputSide field.name) with
    | none =>
        rw [found] at admits
        exact admits
    | some value =>
        obtain ⟨back, there, _⟩ := exists_thereAndBack crosses declaredReturn held found
        simp only [there]
        rfl
  · intro part kept member held unread
    obtain ⟨signature, isOpen, rfl⟩ := Option.map_eq_some_iff.mp kept
    rw [readNames_fieldRule] at unread
    rw [writeNames_fieldRule]
    have found : find? members member.1 = some member.2 := find?_of_mem unique held
    obtain ⟨back, there, _⟩ := exists_openThereAndBack crosses othersReturn isOpen unread found
    exact ⟨unread, by rw [there]; rfl⟩

include distinct unique crosses declaredReturn othersReturn in
/-- **An object comes back** when the values of its members do. -/
theorem exists_crossed_back :
    ∃ backs, cross? direction.opposite fields index outputs = some backs ∧
      SameUpToOrder (.object backs)
        ((Schema.struct fields index).tidied direction.inputSide stamp (.object members)) := by
  obtain ⟨backs, translated⟩ := exists_translated_back unique crosses declaredReturn othersReturn
  refine ⟨backs, (cross?_opposite (distinct _) crosses).trans translated, ?_⟩
  have written := distinct direction.inputSide
  rw [namesOn, ← writeNames_fieldRule _ _ (thereAndBack direction)] at written
  rw [tidied_struct]
  refine SameUpToOrder.of_find? (nodup_keys_translate? written unique translated)
    (nodup_keys_tidiedMembers unique) fun key => ?_
  by_cases declared : key ∈ namesOn direction.inputSide fields
  · -- a declared key: both sides hold what the field makes of the value there
    rw [find?_tidiedMembers (Or.inr declared)]
    obtain ⟨field, held, rfl⟩ := List.mem_map.mp declared
    have atBack := find?_translate?_write written translated (List.mem_map_of_mem held)
    rw [write_fieldRule, read_fieldRule, part_fieldRule] at atBack
    rw [atBack, tidiedMember, memberType_of_mem (distinct _) held]
    cases found : find? members
        ((Renames.ofFields fields).nameOn direction.inputSide field.name) with
    | none => exact Or.inl ⟨rfl, rfl⟩
    | some value =>
        obtain ⟨back, there, same⟩ := exists_thereAndBack crosses declaredReturn held found
        exact Or.inr ⟨back, _, there, rfl, same⟩
  · -- any other key: an open struct has kept it, and a closed one has dropped it on both sides
    have unwritten : key ∉ Members.writeNames (fields.map (fieldRule
        ((Renames.ofFields fields).nameOn direction.inputSide)
        ((Renames.ofFields fields).nameOn direction.inputSide) (thereAndBack direction))) := by
      rw [writeNames_fieldRule]
      exact declared
    have unread := unwritten
    rw [writeNames_fieldRule, ← readNames_fieldRule _
      ((Renames.ofFields fields).nameOn direction.inputSide) (thereAndBack direction)] at unread
    rw [find?_translate?_other translated unwritten unread]
    cases index with
    | none => exact Or.inl ⟨rfl, find?_tidiedMembers_eq_none rfl declared⟩
    | some signature =>
        rw [find?_tidiedMembers (Or.inl rfl), tidiedMember, memberType_of_notMem declared]
        cases found : find? members key with
        | none => exact Or.inl ⟨rfl, rfl⟩
        | some value =>
            obtain ⟨back, there, same⟩ :=
              exists_openThereAndBack crosses othersReturn rfl declared found
            exact Or.inr ⟨back, _, there, rfl, same⟩

/-- **A struct brings back** an object when its types bring back the values of its members. -/
theorem returns_struct {applied : Schema} (names : (fields.map Field.name).Nodup)
    (applies : (Schema.struct fields index).applyRenames = .ok applied)
    (unique : (keys members).Nodup)
    (declaredReturn : ∀ field ∈ fields, ∀ value,
      find? members ((Renames.ofFields fields).nameOn direction.inputSide field.name) = some value →
        Returns direction stamp field.type value)
    (othersReturn : ∀ signature ∈ index, ∀ key ∉ namesOn direction.inputSide fields, ∀ value,
      find? members key = some value → Returns direction stamp signature.value value) :
    Returns direction stamp (.struct fields index) (.object members) := by
  intro written crosses
  have distinct := nodup_namesOn names applies
  rw [outcome?_renamed_struct names applies direction unique] at crosses
  obtain ⟨outputs, crossed, rfl⟩ := Option.map_eq_some_iff.mp crosses
  obtain ⟨backs, crossedBack, same⟩ :=
    exists_crossed_back distinct unique crossed declaredReturn othersReturn
  refine ⟨.object backs, ?_, same⟩
  have uniqueOutputs : (keys outputs).Nodup :=
    nodup_keys_translate? (by rw [writeNames_fieldRule]; exact distinct _) unique crossed
  rw [outcome?_renamed_struct names applies direction.opposite uniqueOutputs, crossedBack,
    Option.map_some]

/-- What is no object does not cross a struct, so that nothing has to come back. -/
theorem returns_struct_of_not_object {applied : Schema} {value : Value}
    (applies : (Schema.struct fields index).applyRenames = .ok applied)
    (other : value.members? = none) : Returns direction stamp (.struct fields index) value := by
  intro written crosses
  rw [outcome?_renamed_struct_of_not_object applies direction other] at crosses
  cases crosses

end Structs

/-! ## (2) Tuples -/

section Tuples

variable {elements : List (Element Schema)} {rest : Option Schema} {isReadonly : Bool}

/-- **An array comes back** when its items do. -/
theorem exists_array_back {items outputs : List Value}
    (translated : Items.translate?
      (fun position => (slotType elements rest position).renamed.outcome? direction) items =
        some outputs)
    (itemsReturn : ∀ position item, items[position]? = some item →
      Returns direction stamp (slotType elements rest position) item) :
    ∃ backs, Items.translate?
        (fun position => (slotType elements rest position).renamed.outcome? direction.opposite)
        outputs = some backs ∧
      SameUpToOrder (.array backs) (.array (items.mapIdx fun position =>
        (slotType elements rest position).tidied direction.inputSide stamp)) := by
  -- each item has crossed at its position, so that it comes back there
  have each : ∀ position item, items[position]? = some item →
      ∃ back, ((slotType elements rest position).renamed.outcome? direction item).bind
          ((slotType elements rest position).renamed.outcome? direction.opposite) = some back ∧
        SameUpToOrder back
          ((slotType elements rest position).tidied direction.inputSide stamp item) := by
    intro position item found
    have crosses :=
      (Items.translate?_isSome_iff _ _).mp (by rw [translated]; rfl) position item found
    exact (itemsReturn position item found).exists_back crosses
  have goesBack := (Items.translate?_isSome_iff _ _).mpr fun position item found => by
    obtain ⟨back, there, _⟩ := each position item found
    exact Option.isSome_iff_exists.mpr ⟨back, there⟩
  obtain ⟨backs, translatedBack⟩ := Option.isSome_iff_exists.mp goesBack
  refine ⟨backs, (Items.translate?_translate? translated).trans translatedBack, .array ?_ ?_⟩
  · rw [Items.length_translate? translatedBack, List.length_mapIdx]
  · intro position left right atLeft atRight
    rw [Items.getElem?_translate? translatedBack] at atLeft
    rw [List.getElem?_mapIdx] at atRight
    cases found : items[position]? with
    | none =>
        rw [found] at atRight
        cases atRight
    | some item =>
        obtain ⟨back, there, same⟩ := each position item found
        rw [found, Option.bind_some, there] at atLeft
        rw [found] at atRight
        cases atLeft
        cases atRight
        exact same

/-- **A tuple brings back** an array when its types bring back its items. -/
theorem returns_tuple {applied : Schema} {items : List Value}
    (applies : (Schema.tuple elements rest isReadonly).applyRenames = .ok applied)
    (itemsReturn : ∀ position item, items[position]? = some item →
      Returns direction stamp (slotType elements rest position) item) :
    Returns direction stamp (.tuple elements rest isReadonly) (.array items) := by
  intro written crosses
  rw [outcome?_renamed_tuple applies] at crosses
  obtain ⟨admits, crosses⟩ := Option.ite_none_right_eq_some.mp crosses
  obtain ⟨outputs, translated, rfl⟩ := Option.map_eq_some_iff.mp crosses
  obtain ⟨backs, translatedBack, same⟩ := exists_array_back translated itemsReturn
  refine ⟨.array backs, ?_, by rw [tidied_tuple]; exact same⟩
  -- what has been put out has the length of the items, which the tuple admits
  rw [outcome?_renamed_tuple applies, Items.length_translate? translated, if_pos admits,
    translatedBack, Option.map_some]

/-- What is no array does not cross a tuple, so that nothing has to come back. -/
theorem returns_tuple_of_not_array {applied : Schema} {value : Value}
    (applies : (Schema.tuple elements rest isReadonly).applyRenames = .ok applied)
    (other : value.items? = none) :
    Returns direction stamp (.tuple elements rest isReadonly) value := by
  intro written crosses
  rw [outcome?_renamed_tuple_of_not_array applies direction other] at crosses
  cases crosses

end Tuples

/-! ## (3) Whole schemas -/

/-- **What has crossed a documented schema comes back** when what stands at its codecs does. -/
theorem returns_of_documented {schema applied : Schema} (documented : schema.Documented)
    (applies : schema.applyRenames = .ok applied) {value : Value} (distinct : value.HasDistinctKeys)
    (stamps : ∀ inner, Place direction.inputSide schema value timestampText inner →
      Returns direction stamp timestampText inner)
    (literals : ∀ truthy falsy inner,
      Place direction.inputSide schema value (.booleanText truthy falsy) inner →
        Returns direction stamp (.booleanText truthy falsy) inner) :
    Returns direction stamp schema value := by
  have meets := meets_of_documented documented applies distinct
  clear documented applies distinct
  -- places below a part are places in the whole, so both hypotheses go down with it
  induction meets with
  | leaf kind value => exact returns_leaf kind value
  | object names applies unique _ _ declaredInduction othersInduction =>
      have distinctNames := nodup_namesOn names applies direction.inputSide
      refine returns_struct names applies unique ?_ ?_
      · intro field held inner found
        exact declaredInduction field held _ inner found
          (fun _ below => stamps _ (.field distinctNames held found below))
          fun _ _ _ below => literals _ _ _ (.field distinctNames held found below)
      · intro signature isOpen key undeclared inner found
        exact othersInduction signature isOpen key inner found
          (fun _ below => stamps _ (.other isOpen undeclared found below))
          fun _ _ _ below => literals _ _ _ (.other isOpen undeclared found below)
  | noObject applies other => exact returns_struct_of_not_object applies other
  | array applies _ slotsInduction =>
      refine returns_tuple applies fun position item found => ?_
      exact slotsInduction position item found (fun _ below => stamps _ (.item found below))
        fun _ _ _ below => literals _ _ _ (.item found below)
  | noArray applies other => exact returns_tuple_of_not_array applies other
  | timestampText value => exact stamps value (.here _ _)
  | booleanText truthy falsy value => exact literals truthy falsy value (.here _ _)

end WireSchema.Schema

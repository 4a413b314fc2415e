import WireSchema.Proofs.Renaming.Reshaping
import WireSchema.Proofs.SchemaDocument.Schemas
import WireSchema.Proofs.Value.DistinctKeys

/-! # Tidy values

What is left of a value when it has been carried through a schema and back: closed structs have lost
their undeclared keys, and timestamps are in the form in which they are written. A value that is
tidy already is left as it is (`tidied_eq_self`). -/

namespace WireSchema.Schema

open Members

/-! ## (1) Places -/

/-- **A place** inside a value, read along a schema with the names of a side: the schema that stands
there, and the value. Members are read by their types, and items by their slots; codecs are not
looked into. -/
inductive Place (side : Side) : Schema → Value → Schema → Value → Prop
  /-- The value itself. -/
  | here (schema : Schema) (value : Value) : Place side schema value schema value
  /-- A place inside a member of an object. -/
  | member {fields : List (Field Schema)} {index : Option (IndexSignature Schema)}
      {members : List (String × Value)} {key : String} {inner : Value} {type : Schema}
      {value : Value} (found : find? members key = some inner)
      (below : Place side (memberType side fields index key) inner type value) :
      Place side (.struct fields index) (.object members) type value
  /-- A place inside an item of an array. -/
  | item {elements : List (Element Schema)} {rest : Option Schema} {isReadonly : Bool}
      {items : List Value} {position : Nat} {inner : Value} {type : Schema} {value : Value}
      (found : items[position]? = some inner)
      (below : Place side (slotType elements rest position) inner type value) :
      Place side (.tuple elements rest isReadonly) (.array items) type value

section Place

variable {side : Side} {fields : List (Field Schema)} {index : Option (IndexSignature Schema)}
  {members : List (String × Value)} {key : String} {inner : Value} {type : Schema} {value : Value}

/-- A place inside what stands under the name of a field. -/
theorem Place.field (distinct : (namesOn side fields).Nodup) {field : Field Schema}
    (held : field ∈ fields)
    (found : find? members ((Renames.ofFields fields).nameOn side field.name) = some inner)
    (below : Place side field.type inner type value) :
    Place side (.struct fields index) (.object members) type value := by
  have isType : memberType side fields index ((Renames.ofFields fields).nameOn side field.name) =
      field.type := memberType_of_mem distinct held
  rw [← isType] at below
  exact .member found below

/-- A place inside what stands under an undeclared key of an open struct. -/
theorem Place.other {signature : IndexSignature Schema} (isOpen : signature ∈ index)
    (undeclared : key ∉ namesOn side fields) (found : find? members key = some inner)
    (below : Place side signature.value inner type value) :
    Place side (.struct fields index) (.object members) type value := by
  cases isOpen
  rw [← memberType_of_notMem undeclared signature] at below
  exact .member found below

/-- The schema at a place is a part of the schema that is read along, unless no type is given to the
place. -/
theorem Place.mem_parts {schema : Schema} {whole : Value}
    (place : Place side schema whole type value) :
    type = unknown ∨ type ∈ schema.parts true := by
  -- the unknown type has no parts, so below it everything is unknown
  have atUnknown : type ∈ unknown.parts true → type = unknown := fun held => by
    simpa [unknown, parts] using held
  induction place with
  | here schema value => exact Or.inr (mem_parts_self schema)
  | @member fields index _ key _ type _ _ _ belowInduction =>
      rcases belowInduction atUnknown with isUnknown | held
      · exact Or.inl isUnknown
      · revert held
        refine memberType_induction (motive := fun inside => type ∈ inside.parts true →
          type = unknown ∨ type ∈ (Schema.struct fields index).parts true) ?_ ?_ ?_ side key
        · intro field fieldHeld held
          exact Or.inr (mem_parts_of_field fieldHeld held)
        · intro signature isOpen held
          exact Or.inr (mem_parts_of_index isOpen held)
        · intro held
          exact Or.inl (atUnknown held)
  | @item elements rest isReadonly _ position _ type _ _ _ belowInduction =>
      rcases belowInduction atUnknown with isUnknown | held
      · exact Or.inl isUnknown
      · revert held
        refine slotType_induction (motive := fun inside => type ∈ inside.parts true →
          type = unknown ∨ type ∈ (Schema.tuple elements rest isReadonly).parts true) ?_ ?_ ?_
          position
        · intro element elementHeld held
          exact Or.inr (mem_parts_of_element elementHeld held)
        · intro inner innerHeld held
          exact Or.inr (mem_parts_of_rest innerHeld held)
        · intro held
          exact Or.inl (atUnknown held)

end Place

/-! ## (2) Tidying -/

/-- A key, if a struct keeps it: open structs keep all keys, and closed ones the declared keys. -/
def keptName? (side : Side) (fields : List (Field Schema)) (isOpen : Bool) (key : String) :
    Option String :=
  if isOpen = true ∨ key ∈ namesOn side fields then some key else none

/-- The reshaping that drops the undeclared keys of closed structs and changes timestamps. -/
def tidying (side : Side) (stamp : Value → Value) : Reshaping where
  side := side
  name? := keptName? side
  convert? conversion :=
    match conversion with
    | .timestampText => some stamp
    | _ => none

/-- **A value without the undeclared keys of closed structs**, and with changed timestamps. -/
def tidied (schema : Schema) (side : Side) (stamp : Value → Value) (value : Value) : Value :=
  schema.reshape (tidying side stamp) value

section Tidied

variable {side : Side} {stamp : Value → Value} {fields : List (Field Schema)}
  {index : Option (IndexSignature Schema)} {members : List (String × Value)} {key : String}

/-- What becomes of the members of a struct inside. -/
def tidiedMember (side : Side) (stamp : Value → Value) (fields : List (Field Schema))
    (index : Option (IndexSignature Schema)) (key : String) : Value → Value :=
  (memberType side fields index key).tidied side stamp

variable (side stamp fields index members) in
/-- The members of a struct that are left. -/
def tidiedMembers : List (String × Value) :=
  rekey (keptName? side fields index.isSome) (tidiedMember side stamp fields index) members

/-- A leaf has nothing to tidy. -/
@[simp] theorem tidied_leaf (kind : LeafType) (value : Value) :
    (Schema.leaf kind).tidied side stamp value = value :=
  reshape_leaf _ kind value

/-- A struct tidies an object by the members that are left. -/
theorem tidied_struct :
    (Schema.struct fields index).tidied side stamp (.object members) =
      .object (tidiedMembers side stamp fields index members) :=
  reshape_struct _ fields index members

/-- A tuple tidies each item by the type at its position. -/
theorem tidied_tuple (elements : List (Element Schema)) (rest : Option Schema) (isReadonly : Bool)
    (items : List Value) :
    (Schema.tuple elements rest isReadonly).tidied side stamp (.array items) =
      .array (items.mapIdx fun position => (slotType elements rest position).tidied side stamp) :=
  reshape_tuple _ elements rest isReadonly items

/-- A timestamp is tidied by its stamp. -/
@[simp] theorem tidied_timestampText (value : Value) :
    timestampText.tidied side stamp value = stamp value :=
  reshape_codec _ _ _ _ value

/-- The text of a truth value has nothing to tidy. -/
@[simp] theorem tidied_booleanText (truthy falsy : String) (value : Value) :
    (booleanText truthy falsy).tidied side stamp value = value :=
  (reshape_codec _ _ _ _ value).trans (reshape_leaf _ _ value)

/-- A key that is kept is kept as it is. -/
theorem keptName?_of_kept (kept : index.isSome = true ∨ key ∈ namesOn side fields) :
    keptName? side fields index.isSome key = some key := if_pos kept

/-- No key is kept under another name. -/
theorem eq_of_keptName? {isOpen : Bool} {name : String}
    (kept : keptName? side fields isOpen key = some name) : key = name := by
  rw [keptName?, Option.ite_none_right_eq_some] at kept
  exact Option.some.inj kept.2

/-- Under a key that is kept stands what stood there, tidied. -/
theorem find?_tidiedMembers (kept : index.isSome = true ∨ key ∈ namesOn side fields) :
    find? (tidiedMembers side stamp fields index members) key =
      (find? members key).map (tidiedMember side stamp fields index key) := by
  refine find?_rekey (fun other => ⟨eq_of_keptName?, ?_⟩) _ _
  rintro rfl
  exact keptName?_of_kept kept

/-- Under a key that is dropped stands nothing. -/
theorem find?_tidiedMembers_eq_none (closed : index = none)
    (undeclared : key ∉ namesOn side fields) :
    find? (tidiedMembers side stamp fields index members) key = none := by
  subst closed
  refine find?_rekey_eq_none (fun other kept => ?_) _ _
  have same := eq_of_keptName? kept
  subst same
  rw [keptName?, Option.ite_none_right_eq_some] at kept
  rcases kept.1 with isOpen | declared
  · cases isOpen
  · exact undeclared declared

/-- Tidying keeps keys distinct. -/
theorem nodup_keys_tidiedMembers (unique : (keys members).Nodup) :
    (keys (tidiedMembers side stamp fields index members)).Nodup :=
  nodup_keys_rekey
    (fun _ _ _ kept otherKept => (eq_of_keptName? kept).trans (eq_of_keptName? otherKept).symm)
    _ unique

end Tidied

/-! ## (3) Tidy values -/

/-- No closed struct meets an object with an undeclared key. -/
def ExactlyKeyed (side : Side) (schema : Schema) (value : Value) : Prop :=
  ∀ fields members, Place side schema value (.struct fields none) (.object members) →
    ∀ key ∈ keys members, key ∈ namesOn side fields

/-- **A tidy value**: closed structs meet no undeclared keys in it, and its timestamps do not
change. -/
structure IsTidy (side : Side) (stamp : Value → Value) (schema : Schema) (value : Value) :
    Prop where
  /-- No closed struct meets an undeclared key. -/
  keyed : schema.ExactlyKeyed side value
  /-- Timestamps do not change. -/
  stamped : ∀ inner, Place side schema value timestampText inner → stamp inner = inner

section Tidy

variable {side : Side} {stamp : Value → Value} {fields : List (Field Schema)}
  {index : Option (IndexSignature Schema)} {members : List (String × Value)}
  {elements : List (Element Schema)} {rest : Option Schema} {isReadonly : Bool}
  {items : List Value}

/-- What is under a key of a tidy object is tidy. -/
theorem IsTidy.member (tidy : IsTidy side stamp (.struct fields index) (.object members))
    {key : String} {inner : Value} (found : find? members key = some inner) :
    IsTidy side stamp (memberType side fields index key) inner where
  keyed _ _ place := tidy.keyed _ _ (.member found place)
  stamped _ place := tidy.stamped _ (.member found place)

/-- The items of a tidy array are tidy. -/
theorem IsTidy.item (tidy : IsTidy side stamp (.tuple elements rest isReadonly) (.array items))
    {position : Nat} {inner : Value} (found : items[position]? = some inner) :
    IsTidy side stamp (slotType elements rest position) inner where
  keyed _ _ place := tidy.keyed _ _ (.item found place)
  stamped _ place := tidy.stamped _ (.item found place)

/-- A tidy object loses no key: an open struct keeps all keys, and a closed one has none to drop. -/
theorem IsTidy.isKept (tidy : IsTidy side stamp (.struct fields index) (.object members))
    {key : String} (held : key ∈ keys members) :
    index.isSome = true ∨ key ∈ namesOn side fields := by
  cases index with
  | some signature => exact Or.inl rfl
  | none => exact Or.inr (tidy.keyed fields members (.here _ _) key held)

/-- A tidy object stays the same if its entries do. -/
theorem tidied_struct_eq_self
    (tidy : IsTidy side stamp (.struct fields index) (.object members))
    (unique : (keys members).Nodup)
    (types : ∀ key inner, find? members key = some inner →
      IsTidy side stamp (memberType side fields index key) inner →
        (memberType side fields index key).tidied side stamp inner = inner) :
    (Schema.struct fields index).tidied side stamp (.object members) = .object members := by
  rw [tidied_struct]
  refine congrArg Value.object (rekey_eq_self fun member held => ⟨?_, ?_⟩)
  · exact keptName?_of_kept (tidy.isKept (mem_keys_of_mem held))
  · have found : find? members member.1 = some member.2 := find?_of_mem unique held
    exact types member.1 member.2 found (tidy.member found)

/-- A tidy array stays the same if its items do. -/
theorem tidied_tuple_eq_self
    (tidy : IsTidy side stamp (.tuple elements rest isReadonly) (.array items))
    (types : ∀ position inner, items[position]? = some inner →
      IsTidy side stamp (slotType elements rest position) inner →
        (slotType elements rest position).tidied side stamp inner = inner) :
    (Schema.tuple elements rest isReadonly).tidied side stamp (.array items) = .array items := by
  rw [tidied_tuple]
  refine congrArg Value.array (List.ext_getElem? fun position => ?_)
  rw [List.getElem?_mapIdx]
  cases found : items[position]? with
  | none => rfl
  | some item => exact congrArg some (types position item found (tidy.item found))

end Tidy

/-- **What is tidy stays as it is**: a value without undeclared keys in closed structs whose
timestamps do not change. -/
theorem tidied_eq_self {side : Side} {stamp : Value → Value} {schema : Schema}
    (documented : schema.Documented) {value : Value} (distinct : value.HasDistinctKeys)
    (tidy : schema.IsTidy side stamp value) : schema.tidied side stamp value = value := by
  induction documented generalizing value with
  | leaf kind => exact tidied_leaf kind value
  | struct _ _ _ fieldsInduction indexInduction =>
      cases value with
      | object members =>
          refine tidied_struct_eq_self tidy distinct.nodup_keys fun key inner found => ?_
          have innerDistinct := distinct.of_find? found
          refine memberType_induction (motive := fun type => type.IsTidy side stamp inner →
            type.tidied side stamp inner = inner) ?_ ?_ ?_ side key
          · exact fun field held => fieldsInduction field held innerDistinct
          · exact fun signature isOpen => indexInduction signature isOpen innerDistinct
          · exact fun _ => tidied_leaf .unknown inner
      | _ => exact reshape_struct_of_not_object _ _ _ rfl
  | tuple _ _ elementsInduction restInduction =>
      cases value with
      | array items =>
          refine tidied_tuple_eq_self tidy fun position inner found => ?_
          have innerDistinct := distinct.of_getElem? found
          refine slotType_induction (motive := fun type => type.IsTidy side stamp inner →
            type.tidied side stamp inner = inner) ?_ ?_ ?_ position
          · exact fun element held => elementsInduction element held innerDistinct
          · exact fun type held => restInduction type held innerDistinct
          · exact fun _ => tidied_leaf .unknown inner
      | _ => exact reshape_tuple_of_not_array _ _ _ _ rfl
  | timestampText =>
      rw [tidied_timestampText]
      -- a timestamp at the root is a place like any other
      exact tidy.stamped value (.here _ _)
  | booleanText truthy falsy => exact tidied_booleanText truthy falsy value

end WireSchema.Schema

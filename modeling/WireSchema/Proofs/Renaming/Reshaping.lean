import WireSchema.Proofs.Members.Rekeying
import WireSchema.Proofs.Renaming.Applied
import WireSchema.Proofs.Transcoding.Outputs

/-! # Reshaping values along schemas

A value can be read along a schema without being carried through it: members of an object belong to
the field of their name on a side, or else to the index type, and items of an array to the slot at
their position. A **reshaping** changes a value along a schema, giving new names to members,
dropping some, and changing what stands at codecs; whatever does not have the shape of the schema
stays as it is. -/

namespace WireSchema

open Members

/-! ## (1) Types of members -/

/-- The field that has a name on a side. -/
def fieldOn? {τ : Type} (side : Side) (fields : List (Field τ)) (key : String) : Option (Field τ) :=
  fields.find? fun field => (Renames.ofFields fields).nameOn side field.name == key

section FieldOn

variable {τ : Type} {side : Side} {fields : List (Field τ)} {key : String}

/-- No field has a key exactly if no field is named so on that side. -/
theorem fieldOn?_eq_none_iff : fieldOn? side fields key = none ↔ key ∉ namesOn side fields := by
  simp [fieldOn?, namesOn]

/-- The field of a key is one of the fields. -/
theorem mem_of_fieldOn? {field : Field τ} (found : fieldOn? side fields key = some field) :
    field ∈ fields := List.mem_of_find?_eq_some found

/-- The field of a key is named so on that side. -/
theorem nameOn_of_fieldOn? {field : Field τ} (found : fieldOn? side fields key = some field) :
    (Renames.ofFields fields).nameOn side field.name = key := by
  simpa using List.find?_some found

/-- Where the names on a side are distinct, each field is the one that has its name there. -/
theorem fieldOn?_of_mem (distinct : (namesOn side fields).Nodup) {field : Field τ}
    (held : field ∈ fields) :
    fieldOn? side fields ((Renames.ofFields fields).nameOn side field.name) = some field := by
  cases found : fieldOn? side fields ((Renames.ofFields fields).nameOn side field.name) with
  | none => exact absurd (List.mem_map_of_mem held) (fieldOn?_eq_none_iff.mp found)
  | some other =>
      -- names are distinct, so no other field has this one
      have same : other = field :=
        List.inj_on_of_nodup_map distinct (mem_of_fieldOn? found) held (nameOn_of_fieldOn? found)
      rw [same]

end FieldOn

namespace Schema

/-- The type of the members called `key` on a side: that of the field of this name there, or else
the index type. -/
def memberType (side : Side) (fields : List (Field Schema))
    (index : Option (IndexSignature Schema)) (key : String) : Schema :=
  (((fieldOn? side fields key).map Field.type).or (index.map IndexSignature.value)).getD unknown

section MemberType

variable {side : Side} {fields : List (Field Schema)} {index : Option (IndexSignature Schema)}
  {key : String}

/-- Under the name of a field stands a value of its type. -/
theorem memberType_of_mem (distinct : (namesOn side fields).Nodup) {field : Field Schema}
    (held : field ∈ fields) :
    memberType side fields index ((Renames.ofFields fields).nameOn side field.name) =
      field.type := by
  rw [memberType, fieldOn?_of_mem distinct held]
  rfl

/-- Under an undeclared key stands a value of the index signature. -/
theorem memberType_of_notMem (undeclared : key ∉ namesOn side fields)
    (signature : IndexSignature Schema) :
    memberType side fields (some signature) key = signature.value := by
  rw [memberType, fieldOn?_eq_none_iff.mpr undeclared]
  rfl

/-- What holds of the types of the fields and of the index type holds of the type of each member, if
it holds of the leaf that stands for no type. -/
theorem memberType_induction {motive : Schema → Prop}
    (ofField : ∀ field ∈ fields, motive field.type)
    (ofIndex : ∀ signature ∈ index, motive signature.value) (ofUnknown : motive unknown)
    (side : Side) (key : String) : motive (memberType side fields index key) := by
  rw [memberType]
  cases found : fieldOn? side fields key with
  | some field => exact ofField field (mem_of_fieldOn? found)
  | none =>
      cases index with
      | some signature => exact ofIndex signature rfl
      | none => exact ofUnknown

end MemberType

/-! ## (2) Reshapings -/

/-- **A reshaping**. -/
structure Reshaping where
  /-- The side whose names the members bear. -/
  side : Side
  /-- The name under which a struct of the given fields keeps a key, if it does; a struct is open or
  closed. -/
  name? : List (Field Schema) → Bool → String → Option String
  /-- What a codec makes of a value; where this is not told, its source is followed. -/
  convert? : Conversion → Option (Value → Value)

mutual

/-- Reshape a value along a schema. -/
def reshape (how : Reshaping) : Schema → Value → Value
  | .struct fields index, .object members =>
      .object (rekey (how.name? fields index.isSome)
        (reshapeMember how ((Renames.ofFields fields).nameOn how.side) (reshapeOther how index)
          fields) members)
  | .tuple elements rest _, .array items =>
      .array (reshapeItems how (reshapeRest how rest) elements items)
  | .codec source _ conversion, value =>
      match how.convert? conversion with
      | some change => change value
      | none => reshape how source value
  | _, value => value

/-- Reshape a member along the first of the fields that has its name, or else by `other`. -/
def reshapeMember (how : Reshaping) (name : String → String) (other : Value → Value) :
    List (Field Schema) → String → Value → Value
  | [], _, value => other value
  | field :: rest, key, value =>
      if name field.name == key then reshape how field.type value
      else reshapeMember how name other rest key value

/-- Reshape an undeclared member along the index type. -/
def reshapeOther (how : Reshaping) : Option (IndexSignature Schema) → Value → Value
  | none, value => value
  | some index, value => reshape how index.value value

/-- Reshape items along the elements at their positions, and those behind them by `others`. -/
def reshapeItems (how : Reshaping) (others : List Value → List Value) :
    List (Element Schema) → List Value → List Value
  | [], items => others items
  | _, [] => []
  | element :: elements, item :: items =>
      reshape how element.type item :: reshapeItems how others elements items

/-- Reshape items along a rest type. -/
def reshapeRest (how : Reshaping) : Option Schema → List Value → List Value
  | none, items => items
  | some rest, items => items.map fun item => reshape how rest item

end

section Reshape

variable (how : Reshaping)

/-- A leaf keeps the values that are reshaped by it. -/
@[simp] theorem reshape_leaf (kind : LeafType) (value : Value) :
    (Schema.leaf kind).reshape how value = value := by
  rw [reshape] <;> simp

/-- A member is reshaped by the type of its key. -/
theorem reshapeMember_eq (side : Side) (fields : List (Field Schema))
    (index : Option (IndexSignature Schema)) (key : String) (value : Value) :
    reshapeMember how ((Renames.ofFields fields).nameOn side) (reshapeOther how index) fields key
      value = (memberType side fields index key).reshape how value := by
  -- the names come from the renames of the whole struct, while the list of fields gets shorter
  have each : ∀ name : String → String, ∀ fields : List (Field Schema),
      reshapeMember how name (reshapeOther how index) fields key value =
        ((((fields.find? fun field => name field.name == key).map Field.type).or
          (index.map IndexSignature.value)).getD unknown).reshape how value := by
    intro name fields
    induction fields with
    | nil => cases index <;> simp [reshapeMember, reshapeOther, unknown]
    | cons field rest induction =>
        rw [reshapeMember, List.find?_cons]
        cases name field.name == key with
        | true => simp
        | false => simpa using induction
  exact each _ fields

/-- **Reshaping an object**: each member that is kept is reshaped along its type. -/
theorem reshape_struct (fields : List (Field Schema)) (index : Option (IndexSignature Schema))
    (members : List (String × Value)) :
    (Schema.struct fields index).reshape how (.object members) =
      .object (rekey (how.name? fields index.isSome)
        (fun key => (memberType how.side fields index key).reshape how) members) := by
  have same : reshapeMember how ((Renames.ofFields fields).nameOn how.side)
      (reshapeOther how index) fields =
        fun key => (memberType how.side fields index key).reshape how := by
    funext key value
    exact reshapeMember_eq how how.side fields index key value
  rw [reshape, same]

/-- A struct keeps what is no object. -/
theorem reshape_struct_of_not_object (fields : List (Field Schema))
    (index : Option (IndexSignature Schema)) {value : Value} (other : value.members? = none) :
    (Schema.struct fields index).reshape how value = value := by
  cases value with
  | object members => cases other
  | _ => rw [reshape] <;> simp

/-- Items are reshaped by the types at their positions. -/
theorem reshapeItems_eq (elements : List (Element Schema)) (rest : Option Schema)
    (items : List Value) :
    reshapeItems how (reshapeRest how rest) elements items =
      items.mapIdx fun position item => (slotType elements rest position).reshape how item := by
  induction elements generalizing items with
  | nil =>
      rw [reshapeItems]
      cases rest with
      | none =>
          have slots : slotType [] none = fun _ => unknown := rfl
          -- behind the elements all slots have one type
          apply List.ext_getElem?
          intro position
          simp [reshapeRest, slots, unknown]
      | some type =>
          have slots : slotType [] (some type) = fun _ => type := rfl
          apply List.ext_getElem?
          intro position
          simp [reshapeRest, slots]
  | cons element elements induction =>
      cases items with
      | nil => rw [reshapeItems] <;> simp
      | cons item items =>
          rw [reshapeItems, List.mapIdx_cons, induction]
          simp only [slotType_cons]
          rfl

/-- **Reshaping an array**: each item is reshaped along the type of its slot. -/
theorem reshape_tuple (elements : List (Element Schema)) (rest : Option Schema) (isReadonly : Bool)
    (items : List Value) :
    (Schema.tuple elements rest isReadonly).reshape how (.array items) =
      .array (items.mapIdx fun position item =>
        (slotType elements rest position).reshape how item) := by
  rw [reshape, reshapeItems_eq]

/-- A tuple keeps what is no array. -/
theorem reshape_tuple_of_not_array (elements : List (Element Schema)) (rest : Option Schema)
    (isReadonly : Bool) {value : Value} (other : value.items? = none) :
    (Schema.tuple elements rest isReadonly).reshape how value = value := by
  cases value with
  | array items => cases other
  | _ => rw [reshape] <;> simp

/-- A codec reshapes by its conversion where that changes values, and by its source otherwise. -/
theorem reshape_codec (source target : Schema) (conversion : Conversion) (value : Value) :
    (Schema.codec source target conversion).reshape how value =
      match how.convert? conversion with
      | some change => change value
      | none => source.reshape how value := by
  rw [reshape]

end Reshape

end Schema

end WireSchema

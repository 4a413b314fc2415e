import WireSchema.Proofs.Members.Insertion
import WireSchema.Schema.Transcoding

/-! # What transcoding puts out

Transcoding an object writes one member after the other into the members before it, and an array is
carried first through the elements and then through the rest type. Here both are put as lists of
outputs: the outputs of the declared members and of the others make up an object
(`transcodeAt_struct`), those of the items, each with the type of its slot, an array
(`transcodeAt_tuple`). -/

namespace WireSchema.Schema

open Members

/-! ## (1) Objects -/

/-- The outputs of the declared members that are there, in declaration order. -/
def fieldOutputs (direction : Direction) (path : String) (inputName : String → String)
    (members : List (String × Value)) :
    List (Field Schema) → Except TranscodingError (List (String × Value))
  | [] => .ok []
  | field :: rest =>
      match find? members field.name with
      | some value => do
          let output ← transcodeAt direction (Pointer.child path (inputName field.name)) id
            field.type value
          let outputs ← fieldOutputs direction path inputName members rest
          return (field.name, output) :: outputs
      | none =>
          if field.isOptional then fieldOutputs direction path inputName members rest
          else .error ⟨path, .missingKey (inputName field.name) direction.inputSide⟩

/-- The outputs of the undeclared members, in their own order. -/
def undeclaredOutputs (direction : Direction) (path : String) (declared : List String)
    (type : Schema) : List (String × Value) → Except TranscodingError (List (String × Value))
  | [] => .ok []
  | (key, value) :: rest =>
      if declared.contains key then undeclaredOutputs direction path declared type rest
      else do
        let output ← transcodeAt direction (Pointer.child path key) id type value
        let outputs ← undeclaredOutputs direction path declared type rest
        return (key, output) :: outputs

/-- The outputs of the undeclared members where there is an index type; else there are none. -/
def otherOutputs (direction : Direction) (path : String) (declared : List String)
    (index : Option (IndexSignature Schema)) (members : List (String × Value)) :
    Except TranscodingError (List (String × Value)) :=
  match index with
  | some index => undeclaredOutputs direction path declared index.value members
  | none => .ok []

/-- Fields insert their outputs one after the other, or fail as these do. -/
theorem transcodeFields_eq (direction : Direction) (path : String) (inputName : String → String)
    (members : List (String × Value)) (fields : List (Field Schema))
    (before : List (String × Value)) :
    transcodeFields direction path inputName members fields before =
      (fieldOutputs direction path inputName members fields).map (insertAll before) := by
  -- the walk takes along what has been written, so that it is generalized over
  induction fields generalizing before with
  | nil => simp [transcodeFields, fieldOutputs, Except.map]
  | cons field rest induction =>
      rw [transcodeFields, fieldOutputs]
      cases find? members field.name with
      | none =>
          simp only
          split
          · exact induction before
          · rfl
      | some value =>
          simp only [induction]
          cases transcodeAt direction (Pointer.child path (inputName field.name)) id field.type
            value with
          | error error => rfl
          | ok output =>
              cases fieldOutputs direction path inputName members rest <;> rfl

/-- An open struct inserts the outputs of its undeclared members, or fails as these do. -/
theorem transcodeOpen_eq (direction : Direction) (path : String) (declared : List String)
    (members : List (String × Value)) (index : Option (IndexSignature Schema))
    (before : List (String × Value)) :
    transcodeOpen direction path declared members index before =
      (otherOutputs direction path declared index members).map (insertAll before) := by
  cases index with
  | none => simp [transcodeOpen, otherOutputs, Except.map]
  | some index =>
      rw [transcodeOpen, otherOutputs]
      induction members generalizing before with
      | nil => rfl
      | cons member rest induction =>
          obtain ⟨key, value⟩ := member
          rw [List.foldlM_cons, undeclaredOutputs]
          by_cases known : declared.contains key = true
          · simp only [known, if_true]
            exact induction before
          · simp only [known, if_false, Bool.false_eq_true]
            cases transcodeAt direction (Pointer.child path key) id index.value value with
            | error error => rfl
            | ok output =>
                refine (induction _).trans ?_
                cases undeclaredOutputs direction path declared index.value rest <;> rfl

/-- **An object** becomes the object of its declared outputs and of its other ones. -/
theorem transcodeAt_struct (direction : Direction) (path : String) (inputName : String → String)
    (fields : List (Field Schema)) (index : Option (IndexSignature Schema))
    (members : List (String × Value)) :
    transcodeAt direction path inputName (.struct fields index) (.object members) = do
      let declared ← fieldOutputs direction path inputName members fields
      let others ← otherOutputs direction path (fields.map Field.name) index members
      return .object (ofList (declared ++ others)) := by
  simp only [transcodeAt, transcodeFields_eq, transcodeOpen_eq]
  cases fieldOutputs direction path inputName members fields with
  | error error => rfl
  | ok declared =>
      cases otherOutputs direction path (fields.map Field.name) index members with
      | error error => rfl
      | ok others =>
          show Except.ok (Value.object (insertAll (insertAll [] declared) others)) = _
          rw [← insertAll_append]
          rfl

/-- What is no object does not go through a struct. -/
theorem transcodeAt_struct_of_not_object (direction : Direction) (path : String)
    (inputName : String → String) (fields : List (Field Schema))
    (index : Option (IndexSignature Schema)) {value : Value} (other : value.members? = none) :
    transcodeAt direction path inputName (.struct fields index) value =
      .error ⟨path, .wrongKind "object" value.kind⟩ := by
  cases value with
  | object members => cases other
  | _ => simp [transcodeAt]

/-! ## (2) Arrays -/

/-- The type at a position of a tuple: of the element there, or else the rest type. -/
def slotType (elements : List (Element Schema)) (rest : Option Schema) (position : Nat) : Schema :=
  ((elements[position]?.map Element.type).or rest).getD .unknown

/-- What holds of the types of the elements and of the rest type holds of the type at each position,
if it holds of the leaf that stands for no type. -/
theorem slotType_induction {motive : Schema → Prop} {elements : List (Element Schema)}
    {rest : Option Schema} (ofElement : ∀ element ∈ elements, motive element.type)
    (ofRest : ∀ type ∈ rest, motive type) (ofUnknown : motive unknown) (position : Nat) :
    motive (slotType elements rest position) := by
  rw [slotType]
  cases found : elements[position]? with
  | some element => exact ofElement element (List.mem_of_getElem? found)
  | none =>
      cases rest with
      | some type => exact ofRest type rfl
      | none => exact ofUnknown

/-- The outputs of the items from position `index` on, where `slot` tells the types of the slots
from there on. -/
def itemOutputs (direction : Direction) (path : String) :
    (Nat → Schema) → Nat → List Value → Except TranscodingError (List Value)
  | _, _, [] => .ok []
  | slot, index, item :: items => do
      let output ← transcodeAt direction (Pointer.child path (Pointer.position index)) id
        (slot 0) item
      let outputs ← itemOutputs direction path (fun offset => slot (offset + 1)) (index + 1) items
      return output :: outputs

/-- Behind the first element, the slots are those of the elements behind it. -/
theorem slotType_cons (element : Element Schema) (elements : List (Element Schema))
    (rest : Option Schema) (position : Nat) :
    slotType (element :: elements) rest (position + 1) = slotType elements rest position := by
  simp [slotType]

/-- The items of a rest all have its type. -/
theorem transcodeRest_eq (direction : Direction) (path : String) (index : Nat) (rest : Schema)
    (items : List Value) :
    transcodeRest direction path index (some rest) items =
      itemOutputs direction path (fun _ => rest) index items := by
  rw [transcodeRest]
  induction items generalizing index with
  | nil => rfl
  | cons item items induction =>
      rw [List.zipIdx_cons, List.mapM_cons, itemOutputs, ← induction]

/-- Without items there is nothing to do for the rest type. -/
theorem transcodeRest_nil (direction : Direction) (path : String) (index : Nat)
    (rest : Option Schema) : transcodeRest direction path index rest [] = .ok [] := by
  cases rest with
  | none => rw [transcodeRest]
  | some rest => rw [transcodeRest_eq, itemOutputs]

/-- Without elements all items belong to the rest type, or there are none. -/
theorem transcodeRest_eq_itemOutputs (direction : Direction) (path : String) (index : Nat)
    {rest : Option Schema} {items : List Value} (fits : rest.isSome ∨ items = []) :
    transcodeRest direction path index rest items =
      itemOutputs direction path (slotType [] rest) index items := by
  cases rest with
  | none =>
      have empty : items = [] := by simpa using fits
      rw [empty, transcodeRest_nil, itemOutputs]
  | some rest =>
      have slots : slotType [] (some rest) = fun _ => rest := by
        funext position
        simp [slotType]
      rw [transcodeRest_eq, slots]

/-- Elements and rest together put out the items by the types of their slots. -/
theorem transcodeElements_eq (direction : Direction) (path : String) (index : Nat)
    (elements : List (Element Schema)) (rest : Option Schema) (items : List Value)
    (fits : rest.isSome ∨ items.length ≤ elements.length) :
    (do
      let outputs ← transcodeElements direction path index elements items
      let others ← transcodeRest direction path (index + elements.length) rest
        (items.drop elements.length)
      return outputs ++ others) =
      itemOutputs direction path (slotType elements rest) index items := by
  induction elements generalizing index items with
  | nil =>
      rw [← transcodeRest_eq_itemOutputs direction path index (by simpa using fits),
        transcodeElements]
      · show (do
          let others ← transcodeRest direction path index rest (items.drop 0)
          return [] ++ others) = _
        simp
      · simp
  | cons element elements induction =>
      cases items with
      | nil =>
          rw [transcodeElements, List.drop_nil, transcodeRest_nil, itemOutputs]
          · rfl
          · simp
      | cons item items =>
          -- the slots and the positions of the later items count from the next one on
          have later := induction (index + 1) items (by simpa using fits)
          have shifted : index + (element :: elements).length = index + 1 + elements.length := by
            simp only [List.length_cons]
            omega
          have slots : (fun offset => slotType (element :: elements) rest (offset + 1)) =
              slotType elements rest := by
            funext offset
            exact slotType_cons element elements rest offset
          rw [transcodeElements, itemOutputs, slots, ← later, shifted]
          have first : slotType (element :: elements) rest 0 = element.type := by simp [slotType]
          rw [first]
          simp

/-- **An array** of a length that the tuple admits becomes the array of the outputs of its items,
each with the type of its slot. -/
theorem transcodeAt_tuple (direction : Direction) (path : String) (inputName : String → String)
    (elements : List (Element Schema)) (rest : Option Schema) (isReadonly : Bool)
    (items : List Value) :
    transcodeAt direction path inputName (.tuple elements rest isReadonly) (.array items) =
      if admitsArity elements rest.isSome items.length then
        (itemOutputs direction path (slotType elements rest) 0 items).map .array
      else
        .error ⟨path, .wrongArity
          (arityText (requiredCount elements) elements.length rest.isSome) items.length⟩ := by
  rw [transcodeAt]
  split
  · next admitted =>
      have fits : rest.isSome ∨ items.length ≤ elements.length := by
        simp only [admitsArity, Bool.and_eq_true, Bool.or_eq_true, decide_eq_true_eq] at admitted
        exact admitted.2
      rw [← transcodeElements_eq direction path 0 elements rest items fits, Nat.zero_add]
      cases transcodeElements direction path 0 elements items with
      | error error => rfl
      | ok outputs =>
          cases transcodeRest direction path elements.length rest (items.drop elements.length) <;>
            rfl
  · rfl

/-- What is no array does not go through a tuple. -/
theorem transcodeAt_tuple_of_not_array (direction : Direction) (path : String)
    (inputName : String → String) (elements : List (Element Schema)) (rest : Option Schema)
    (isReadonly : Bool) {value : Value} (other : value.items? = none) :
    transcodeAt direction path inputName (.tuple elements rest isReadonly) value =
      .error ⟨path, .wrongKind "array" value.kind⟩ := by
  cases value with
  | array items => cases other
  | _ => simp [transcodeAt]

/-! ## (3) Codecs -/

/-- The side of a codec that a value is carried through before the conversion. -/
def nearSide (source target : Schema) : Direction → Schema
  | .encode => target
  | .decode => source

/-- The side of a codec that a value is carried through behind the conversion. -/
def farSide (source target : Schema) : Direction → Schema
  | .encode => source
  | .decode => target

/-- What holds of both sides of a codec holds of its near side. -/
theorem nearSide_induction {motive : Schema → Prop} {source target : Schema}
    (ofSource : motive source) (ofTarget : motive target) (direction : Direction) :
    motive (nearSide source target direction) := by
  cases direction with
  | encode => exact ofTarget
  | decode => exact ofSource

/-- What holds of both sides of a codec holds of its far side. -/
theorem farSide_induction {motive : Schema → Prop} {source target : Schema}
    (ofSource : motive source) (ofTarget : motive target) (direction : Direction) :
    motive (farSide source target direction) := by
  cases direction with
  | encode => exact ofSource
  | decode => exact ofTarget

/-- **A codec** carries a value through its near side, its conversion and its far side. -/
theorem transcodeAt_codec (direction : Direction) (path : String) (inputName : String → String)
    (source target : Schema) (conversion : Conversion) (value : Value) :
    transcodeAt direction path inputName (.codec source target conversion) value = (do
      let near ← transcodeAt direction path id (nearSide source target direction) value
      let carried ← (conversion.run direction near).mapError (·.anchored path)
      transcodeAt direction path (Schema.inputName conversion direction.inputSide)
        (farSide source target direction) carried) := by
  cases direction <;> simp only [transcodeAt, nearSide, farSide, Conversion.run]

/-- A codec between leaves does what its conversion does. -/
theorem transcodeAt_codec_leaf (direction : Direction) (path : String)
    (inputName : String → String) (source target : LeafType) (conversion : Conversion)
    (value : Value) :
    transcodeAt direction path inputName (.codec (.leaf source) (.leaf target) conversion) value =
      (conversion.run direction value).mapError (·.anchored path) := by
  have near : transcodeAt direction path id (nearSide (.leaf source) (.leaf target) direction)
      value = .ok value := by
    cases direction <;> simp [nearSide, transcodeAt]
  have far : ∀ inputName carried, transcodeAt direction path inputName
      (farSide (.leaf source) (.leaf target) direction) carried = .ok carried := by
    intro inputName carried
    cases direction <;> simp [farSide, transcodeAt]
  rw [transcodeAt_codec, near]
  simp only [far]
  exact bind_pure ((conversion.run direction value).mapError (·.anchored path))

end WireSchema.Schema

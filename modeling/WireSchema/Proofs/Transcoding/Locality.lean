import Mathlib.Data.List.Forall2
import WireSchema.Proofs.Gathering
import WireSchema.Proofs.Transcoding.Anchoring
import WireSchema.Proofs.Transcoding.Arity

/-! # Transcoding part by part

A struct or a tuple is carried over by carrying its children, each on its own: the members of
declared fields in declaration order, the undeclared members in their own order, the items of an
array. It succeeds when all children do and puts out what they put out, and it fails as the first
child that fails, whose error is told from its own root and then anchored (`transcode_isLocal`). -/

namespace WireSchema.Schema

open Members

/-! ## (1) Children -/

/-- **A child** of a struct or a tuple: what the walk meets inside a value. -/
inductive Child where
  /-- A required field that is not there. -/
  | missing (name : String)
  /-- A part of the value, under the segment that leads to it, with the type that it goes
  through. -/
  | part (segment : String) (type : Schema) (value : Value)

namespace Child

/-- The name under which a child stands, or would stand. -/
def name : Child → String
  | missing name => name
  | part segment _ _ => segment

/-- What a child puts out: its own outcome, under its own segment. -/
def PutsOut (direction : Direction) : Child → String × Value → Prop
  | missing _, _ => False
  | part segment type value, output =>
      output.1 = segment ∧ type.transcode direction value = .ok output.2

/-- How a child fails: a missing key at the root, or its own error anchored at its segment. -/
def FailsWith (direction : Direction) : Child → TranscodingError → Prop
  | missing name, error => error = ⟨"", .missingKey name direction.inputSide⟩
  | part segment type value, error => ∃ inner,
      type.transcode direction value = .error inner ∧
        error = inner.anchored (Pointer.child "" segment)

/-- Carry a child over. -/
def run (direction : Direction) : Child → Except TranscodingError (String × Value)
  | missing name => .error ⟨"", .missingKey name direction.inputSide⟩
  | part segment type value =>
      ((type.transcode direction value).mapError (·.anchored (Pointer.child "" segment))).map
        fun output => (segment, output)

variable {direction : Direction} {child : Child}

/-- The run of a child succeeds exactly with what the child puts out. -/
theorem run_eq_ok_iff {output : String × Value} :
    child.run direction = .ok output ↔ child.PutsOut direction output := by
  obtain ⟨name, inner⟩ := output
  cases child with
  | missing name => simp [run, PutsOut]
  | part segment type value =>
      simp only [run, map_eq_ok_iff, mapError_eq_ok_iff, PutsOut, Prod.mk.injEq]
      constructor
      · rintro ⟨_, goes, rfl, rfl⟩
        exact ⟨rfl, goes⟩
      · rintro ⟨rfl, goes⟩
        exact ⟨inner, goes, rfl, rfl⟩

/-- The run of a child fails exactly with the errors that the child fails with. -/
theorem run_eq_error_iff {error : TranscodingError} :
    child.run direction = .error error ↔ child.FailsWith direction error := by
  cases child with
  | missing name => simp [run, FailsWith, eq_comm]
  | part segment type value =>
      rw [run, map_eq_error_iff, mapError_eq_error_iff]
      constructor
      · rintro ⟨inner, fails, rfl⟩
        exact ⟨inner, fails, rfl⟩
      · rintro ⟨inner, fails, rfl⟩
        exact ⟨inner, fails, rfl⟩

/-- What children put out stands under their names. -/
theorem keys_of_putsOut {children : List Child} {outputs : List (String × Value)}
    (putOut : List.Forall₂ (PutsOut direction) children outputs) :
    keys outputs = children.map name := by
  induction putOut with
  | nil => rfl
  | @cons child output _ _ first _ induction =>
      have same : output.1 = child.name := by
        cases child with
        | missing name => exact first.elim
        | part segment type value => exact first.1
      show output.1 :: keys _ = child.name :: _
      rw [induction, same]

/-- **The first failure** among children: the children before it put something out. -/
def FirstFails (direction : Direction) (children : List Child) (error : TranscodingError) : Prop :=
  ∃ front child behind, children = front ++ child :: behind ∧
    (∀ earlier ∈ front, ∃ output, PutsOut direction earlier output) ∧
    FailsWith direction child error

/-- Children that are run in order succeed exactly with what they put out one by one. -/
theorem mapM_run_eq_ok_iff {children : List Child} {outputs : List (String × Value)} :
    children.mapM (run direction) = .ok outputs ↔
      List.Forall₂ (PutsOut direction) children outputs := by
  simp only [mapM_eq_ok_iff, run_eq_ok_iff]

/-- Children that are run in order fail exactly with the error of the first one that fails. -/
theorem mapM_run_eq_error_iff {children : List Child} {error : TranscodingError} :
    children.mapM (run direction) = .error error ↔ FirstFails direction children error := by
  simp only [mapM_eq_error_iff, run_eq_ok_iff, run_eq_error_iff, FirstFails]

/-- All children put something out when each of them does. -/
theorem exists_forall₂_putsOut_iff {children : List Child} :
    (∃ outputs, List.Forall₂ (PutsOut direction) children outputs) ↔
      ∀ child ∈ children, ∃ output, PutsOut direction child output := by
  induction children with
  | nil => exact ⟨fun _ => nofun, fun _ => ⟨[], .nil⟩⟩
  | cons child rest induction =>
      rw [List.forall_mem_cons, ← induction]
      constructor
      · rintro ⟨_, _ | ⟨first, others⟩⟩
        exact ⟨⟨_, first⟩, _, others⟩
      · rintro ⟨⟨output, first⟩, outputs, others⟩
        exact ⟨output :: outputs, .cons first others⟩

/-- A part puts something out exactly if its value is transcoded. -/
theorem exists_putsOut_part_iff {segment : String} {type : Schema} {value : Value} :
    (∃ output, (part segment type value).PutsOut direction output) ↔
      ∃ output, type.transcode direction value = .ok output :=
  ⟨fun ⟨output, goes⟩ => ⟨output.2, goes.2⟩, fun ⟨output, goes⟩ => ⟨(segment, output), rfl, goes⟩⟩

end Child

/-- The children of an object at declared fields, in declaration order; a field that may be absent
and is has none. -/
def declaredChildren (fields : List (Field Schema)) (members : List (String × Value)) :
    List Child :=
  fields.filterMap fun field =>
    match find? members field.name with
    | some value => some (.part field.name field.type value)
    | none => if field.isOptional then none else some (.missing field.name)

/-- The children of an object under undeclared keys, in the order of the object; without an index
type there are none. -/
def openChildren (fields : List (Field Schema)) (index : Option (IndexSignature Schema))
    (members : List (String × Value)) : List Child :=
  match index with
  | none => []
  | some signature =>
      (members.filter fun member => member.1 ∉ fields.map Field.name).map fun member =>
        .part member.1 signature.value member.2

/-- **The children of an object**: the declared ones before the others. -/
def objectChildren (fields : List (Field Schema)) (index : Option (IndexSignature Schema))
    (members : List (String × Value)) : List Child :=
  declaredChildren fields members ++ openChildren fields index members

/-- **The children of an array**: its items, each with the type of its slot. -/
def itemChildren (elements : List (Element Schema)) (rest : Option Schema) (items : List Value) :
    List Child :=
  items.mapIdx fun position item =>
    .part (Pointer.position position) (slotType elements rest position) item

/-! ## (2) Runs over children -/

variable {direction : Direction}

/-- The errors of a value under a segment are those of the value by itself, anchored there. -/
theorem transcodeAt_child (segment : String) (type : Schema) (value : Value) :
    transcodeAt direction (Pointer.child "" segment) id type value =
      (type.transcode direction value).mapError (·.anchored (Pointer.child "" segment)) :=
  transcodeAt_eq_anchored direction (Pointer.child "" segment) id type value

/-- The outputs of fields are those of the declared children, run in order. -/
theorem fieldOutputs_eq_mapM (members : List (String × Value)) (fields : List (Field Schema)) :
    fieldOutputs direction "" id members fields =
      (declaredChildren fields members).mapM (Child.run direction) := by
  induction fields with
  | nil => rfl
  | cons field rest induction =>
      rw [fieldOutputs, induction]
      cases found : find? members field.name with
      | some value =>
          have children : declaredChildren (field :: rest) members =
              .part field.name field.type value :: declaredChildren rest members := by
            simp [declaredChildren, found]
          simp only [id, transcodeAt_child, children, List.mapM_cons, Child.run]
          cases field.type.transcode direction value <;> rfl
      | none =>
          -- a field that may be missing has no child
          cases optional : field.isOptional with
          | true =>
              have children : declaredChildren (field :: rest) members =
                  declaredChildren rest members := by
                simp [declaredChildren, found, optional]
              rw [children]
              rfl
          | false =>
              have children : declaredChildren (field :: rest) members =
                  .missing field.name :: declaredChildren rest members := by
                simp [declaredChildren, found, optional]
              rw [children]
              rfl

/-- The outputs of undeclared members are those of the open children, run in order. -/
theorem otherOutputs_eq_mapM (fields : List (Field Schema))
    (index : Option (IndexSignature Schema)) (members : List (String × Value)) :
    otherOutputs direction "" (fields.map Field.name) index members =
      (openChildren fields index members).mapM (Child.run direction) := by
  cases index with
  | none => rfl
  | some signature =>
      rw [otherOutputs]
      induction members with
      | nil => rfl
      | cons member rest induction =>
          obtain ⟨key, value⟩ := member
          rw [undeclaredOutputs, induction, openChildren, openChildren]
          by_cases known : key ∈ fields.map Field.name
          · rw [if_pos (List.contains_iff_mem.mpr known),
              List.filter_cons_of_neg (by simpa using known)]
          · rw [if_neg (mt List.contains_iff_mem.mp known),
              List.filter_cons_of_pos (by simpa using known), List.map_cons, List.mapM_cons]
            simp only [transcodeAt_child, Child.run]
            cases signature.value.transcode direction value <;> rfl

/-- **An object through a struct** is a run over its children. -/
theorem transcode_struct_eq (fields : List (Field Schema))
    (index : Option (IndexSignature Schema)) (members : List (String × Value)) :
    (Schema.struct fields index).transcode direction (.object members) =
      ((objectChildren fields index members).mapM (Child.run direction)).map fun outputs =>
        .object (ofList outputs) := by
  rw [transcode, transcodeAt_struct, fieldOutputs_eq_mapM, otherOutputs_eq_mapM, objectChildren,
    List.mapM_append]
  cases (declaredChildren fields members).mapM (Child.run direction) with
  | error error => rfl
  | ok declared =>
      cases (openChildren fields index members).mapM (Child.run direction) <;> rfl

/-- The outputs of items are those of one child for each item, run in order. -/
theorem itemOutputs_eq_mapM (slot : Nat → Schema) (index : Nat) (items : List Value) :
    itemOutputs direction "" slot index items =
      ((items.mapIdx fun position item =>
        Child.part (Pointer.position (index + position)) (slot position) item).mapM
          (Child.run direction)).map (List.map Prod.snd) := by
  induction items generalizing slot index with
  | nil => rfl
  | cons item items induction =>
      have later : (fun position => Child.part (Pointer.position (index + (position + 1)))
          (slot (position + 1))) = fun position =>
            Child.part (Pointer.position (index + 1 + position)) (slot (position + 1)) := by
        funext position
        rw [Nat.add_right_comm, Nat.add_assoc]
      rw [itemOutputs, induction, List.mapIdx_cons, List.mapM_cons, later]
      simp only [transcodeAt_child, Child.run, Nat.add_zero]
      cases (slot 0).transcode direction item with
      | error error => rfl
      | ok output =>
          cases (items.mapIdx fun position item =>
            Child.part (Pointer.position (index + 1 + position)) (slot (position + 1)) item).mapM
              (Child.run direction) <;> rfl

/-- **An array through a tuple** that admits its length is a run over its children. -/
theorem transcode_tuple_eq (elements : List (Element Schema)) (rest : Option Schema)
    (isReadonly : Bool) {items : List Value}
    (admitted : admitsArity elements rest.isSome items.length = true) :
    (Schema.tuple elements rest isReadonly).transcode direction (.array items) =
      ((itemChildren elements rest items).mapM (Child.run direction)).map fun outputs =>
        .array (outputs.map Prod.snd) := by
  rw [transcode, transcodeAt_tuple, if_pos admitted, itemOutputs_eq_mapM]
  simp only [Nat.zero_add, itemChildren]
  cases (items.mapIdx _).mapM (Child.run direction) <;> rfl

/-! ## (3) Objects and arrays -/

/-- The declared children are named after fields, in their order. -/
theorem name_declaredChildren_sublist (fields : List (Field Schema))
    (members : List (String × Value)) :
    ((declaredChildren fields members).map Child.name).Sublist (fields.map Field.name) := by
  induction fields with
  | nil => exact .slnil
  | cons field rest induction =>
      rw [declaredChildren, List.filterMap_cons, List.map_cons]
      cases find? members field.name with
      | some value => exact induction.cons_cons field.name
      | none =>
          cases field.isOptional with
          | true => exact induction.cons field.name
          | false => exact induction.cons_cons field.name

/-- The open children are named after keys, in their order, and after no field. -/
theorem name_openChildren_sublist (fields : List (Field Schema))
    (index : Option (IndexSignature Schema)) (members : List (String × Value)) :
    ((openChildren fields index members).map Child.name).Sublist (keys members) ∧
      ∀ child ∈ openChildren fields index members, child.name ∉ fields.map Field.name := by
  cases index with
  | none => exact ⟨List.nil_sublist _, nofun⟩
  | some signature =>
      rw [openChildren, List.map_map]
      refine ⟨List.filter_sublist.map Prod.fst, fun child held => ?_⟩
      obtain ⟨member, kept, rfl⟩ := List.mem_map.mp held
      exact of_decide_eq_true (List.mem_filter.mp kept).2

/-- The names of the children are distinct where neither fields nor keys repeat a name. -/
theorem nodup_name_objectChildren {fields : List (Field Schema)}
    (index : Option (IndexSignature Schema)) {members : List (String × Value)}
    (distinctFields : (fields.map Field.name).Nodup) (distinctKeys : (keys members).Nodup) :
    ((objectChildren fields index members).map Child.name).Nodup := by
  have declared := name_declaredChildren_sublist fields members
  obtain ⟨others, apart⟩ := name_openChildren_sublist fields index members
  rw [objectChildren, List.map_append, List.nodup_append]
  refine ⟨distinctFields.sublist declared, distinctKeys.sublist others, ?_⟩
  rintro name held other otherHeld rfl
  obtain ⟨child, childHeld, same⟩ := List.mem_map.mp otherHeld
  exact apart child childHeld (same ▸ declared.subset held)

/-- A child at a declared field is a value that is there, or the lack of one that has to be. -/
theorem forall_mem_declaredChildren_iff {fields : List (Field Schema)}
    {members : List (String × Value)} {good : Child → Prop} :
    (∀ child ∈ declaredChildren fields members, good child) ↔
      (∀ field ∈ fields, field.isOptional = false → find? members field.name = none →
        good (.missing field.name)) ∧
      ∀ field ∈ fields, ∀ value ∈ find? members field.name,
        good (.part field.name field.type value) := by
  simp only [declaredChildren, List.mem_filterMap]
  constructor
  · intro each
    refine ⟨fun field held required absent => each _ ⟨field, held, ?_⟩,
      fun field held value found => each _ ⟨field, held, ?_⟩⟩
    · simp [absent, required]
    · rw [Option.mem_def.mp found]
  · rintro ⟨absent, present⟩ child ⟨field, held, same⟩
    cases found : find? members field.name with
    | some value =>
        rw [found] at same
        cases same
        exact present field held value found
    | none =>
        cases optional : field.isOptional with
        | true => simp [found, optional] at same
        | false =>
            simp only [found, optional, Bool.false_eq_true, if_false, Option.some.injEq] at same
            exact same ▸ absent field held optional found

/-- **What a struct needs of an object**: all required fields are there, and what is there goes
through its own type. -/
structure PartsGo (direction : Direction) (fields : List (Field Schema))
    (index : Option (IndexSignature Schema)) (members : List (String × Value)) : Prop where
  /-- Required fields are there. -/
  required : ∀ field ∈ fields, field.isOptional = false → field.name ∈ keys members
  /-- The values of declared fields go through. -/
  declared : ∀ field ∈ fields, ∀ value, find? members field.name = some value →
    ∃ output, field.type.transcode direction value = .ok output
  /-- The values of undeclared keys go through, where there is an index type. -/
  others : ∀ signature, index = some signature → ∀ member ∈ members,
    member.1 ∉ fields.map Field.name →
      ∃ output, signature.value.transcode direction member.2 = .ok output

/-- The parts of an object go exactly if each of its children puts something out. -/
theorem partsGo_iff {fields : List (Field Schema)} {index : Option (IndexSignature Schema)}
    {members : List (String × Value)} :
    PartsGo direction fields index members ↔
      ∀ child ∈ objectChildren fields index members, ∃ output, child.PutsOut direction output := by
  have openParts : (∀ child ∈ openChildren fields index members,
      ∃ output, child.PutsOut direction output) ↔
        ∀ signature, index = some signature → ∀ member ∈ members,
          member.1 ∉ fields.map Field.name →
            ∃ output, signature.value.transcode direction member.2 = .ok output := by
    cases index with
    | none => exact ⟨fun _ => nofun, fun _ => nofun⟩
    | some signature =>
        simp only [openChildren, List.forall_mem_map, List.mem_filter, decide_eq_true_eq,
          Child.exists_putsOut_part_iff, and_imp, Option.some.injEq, forall_eq']
  rw [objectChildren, List.forall_mem_append, openParts, forall_mem_declaredChildren_iff]
  simp only [Child.exists_putsOut_part_iff]
  constructor
  · rintro ⟨required, declared, others⟩
    refine ⟨⟨fun field held isRequired absent => ?_, declared⟩, others⟩
    exact absurd (required field held isRequired) ((find?_eq_none_iff members field.name).mp absent)
  · rintro ⟨⟨missing, declared⟩, others⟩
    refine ⟨fun field held isRequired => ?_, declared, others⟩
    by_contra absent
    obtain ⟨_, never⟩ := missing field held isRequired
      ((find?_eq_none_iff members field.name).mpr absent)
    exact never

/-- What comes out of an object is the object of what its children put out. -/
theorem transcode_struct_eq_ok_iff {fields : List (Field Schema)}
    {index : Option (IndexSignature Schema)} {members : List (String × Value)}
    (distinctFields : (fields.map Field.name).Nodup) (distinctKeys : (keys members).Nodup)
    {output : Value} :
    (Schema.struct fields index).transcode direction (.object members) = .ok output ↔
      ∃ outputs, output = .object outputs ∧
        List.Forall₂ (Child.PutsOut direction) (objectChildren fields index members) outputs := by
  have distinct := nodup_name_objectChildren index distinctFields distinctKeys
  rw [transcode_struct_eq, map_eq_ok_iff]
  simp only [Child.mapM_run_eq_ok_iff]
  -- distinct children write distinct members, so that none is written in place of another
  constructor
  · rintro ⟨outputs, putOut, rfl⟩
    rw [← Child.keys_of_putsOut putOut] at distinct
    exact ⟨outputs, by rw [ofList_of_nodup distinct], putOut⟩
  · rintro ⟨outputs, rfl, putOut⟩
    rw [← Child.keys_of_putsOut putOut] at distinct
    exact ⟨outputs, putOut, by rw [ofList_of_nodup distinct]⟩

/-- A struct rejects an object exactly with the error of the first child that fails. -/
theorem transcode_struct_eq_error_iff {fields : List (Field Schema)}
    {index : Option (IndexSignature Schema)} {members : List (String × Value)}
    {error : TranscodingError} :
    (Schema.struct fields index).transcode direction (.object members) = .error error ↔
      Child.FirstFails direction (objectChildren fields index members) error := by
  rw [transcode_struct_eq, map_eq_error_iff, Child.mapM_run_eq_error_iff]

/-- All children of an array put something out when its items go through. -/
theorem forall_mem_itemChildren_iff {elements : List (Element Schema)} {rest : Option Schema}
    {items : List Value} :
    (∀ child ∈ itemChildren elements rest items, ∃ output, child.PutsOut direction output) ↔
      ∀ position item, items[position]? = some item → ∃ output,
        (slotType elements rest position).transcode direction item = .ok output := by
  constructor
  · intro each position item found
    have held : Child.part (Pointer.position position) (slotType elements rest position) item ∈
        itemChildren elements rest items := by
      refine List.mem_of_getElem? (i := position) ?_
      rw [itemChildren, List.getElem?_mapIdx, found, Option.map_some]
    exact Child.exists_putsOut_part_iff.mp (each _ held)
  · intro each child held
    obtain ⟨position, found⟩ := List.getElem?_of_mem held
    rw [itemChildren, List.getElem?_mapIdx, Option.map_eq_some_iff] at found
    obtain ⟨item, itemFound, rfl⟩ := found
    exact Child.exists_putsOut_part_iff.mpr (each position item itemFound)

/-- What comes out of an array is the array of what its items put out. -/
theorem transcode_tuple_eq_ok_iff {elements : List (Element Schema)} {rest : Option Schema}
    {isReadonly : Bool} {items : List Value} {output : Value} :
    (Schema.tuple elements rest isReadonly).transcode direction (.array items) = .ok output ↔
      admitsArity elements rest.isSome items.length = true ∧
        ∃ outputs, output = .array (outputs.map Prod.snd) ∧
          List.Forall₂ (Child.PutsOut direction) (itemChildren elements rest items) outputs := by
  by_cases admitted : admitsArity elements rest.isSome items.length = true
  · rw [transcode_tuple_eq elements rest isReadonly admitted, map_eq_ok_iff]
    simp only [Child.mapM_run_eq_ok_iff, admitted, true_and, eq_comm (b := output), and_comm]
  · rw [transcode_tuple_of_not_admitsArity isReadonly admitted]
    exact ⟨nofun, fun goes => absurd goes.1 admitted⟩

/-- An array fails for its length, or as the first of its items that fails. -/
theorem transcode_tuple_eq_error_iff {elements : List (Element Schema)} {rest : Option Schema}
    {isReadonly : Bool} {items : List Value} {error : TranscodingError} :
    (Schema.tuple elements rest isReadonly).transcode direction (.array items) = .error error ↔
      (admitsArity elements rest.isSome items.length = false ∧
        error = ⟨"", .wrongArity
          (arityText (requiredCount elements) elements.length rest.isSome) items.length⟩) ∨
      (admitsArity elements rest.isSome items.length = true ∧
        Child.FirstFails direction (itemChildren elements rest items) error) := by
  cases admitted : admitsArity elements rest.isSome items.length with
  | true =>
      rw [transcode_tuple_eq elements rest isReadonly admitted, map_eq_error_iff,
        Child.mapM_run_eq_error_iff]
      simp
  | false =>
      rw [transcode_tuple_of_not_admitsArity isReadonly (by simp [admitted])]
      simp [eq_comm]

/-- **Transcoding is local.** A value at a path goes as it goes at the root, where its errors are
anchored at the path. So an object goes through a struct exactly when its parts do, and puts out
what they put out; it fails as the first of its children that fails, fields before other keys. An
array of a length that the tuple admits goes item by item alike. -/
theorem transcode_isLocal (direction : Direction) :
    (∀ path inputName schema value, transcodeAt direction path inputName schema value =
      (transcodeAt direction "" inputName schema value).mapError (·.anchored path)) ∧
    (∀ fields index members, (fields.map Field.name).Nodup → (keys members).Nodup →
      ((∃ output, (Schema.struct fields index).transcode direction (.object members) =
          .ok output) ↔ PartsGo direction fields index members) ∧
      (∀ output, (Schema.struct fields index).transcode direction (.object members) = .ok output ↔
        ∃ outputs, output = .object outputs ∧
          List.Forall₂ (Child.PutsOut direction) (objectChildren fields index members) outputs) ∧
      ∀ error, (Schema.struct fields index).transcode direction (.object members) = .error error ↔
        Child.FirstFails direction (objectChildren fields index members) error) ∧
    ∀ elements rest isReadonly items,
      ((∃ output, (Schema.tuple elements rest isReadonly).transcode direction (.array items) =
          .ok output) ↔
        admitsArity elements rest.isSome items.length = true ∧
          ∀ position item, items[position]? = some item → ∃ output,
            (slotType elements rest position).transcode direction item = .ok output) ∧
      (∀ output, (Schema.tuple elements rest isReadonly).transcode direction (.array items) =
          .ok output ↔
        admitsArity elements rest.isSome items.length = true ∧
          ∃ outputs, output = .array (outputs.map Prod.snd) ∧
            List.Forall₂ (Child.PutsOut direction) (itemChildren elements rest items) outputs) ∧
      ∀ error, (Schema.tuple elements rest isReadonly).transcode direction (.array items) =
          .error error ↔
        (admitsArity elements rest.isSome items.length = false ∧
          error = ⟨"", .wrongArity
            (arityText (requiredCount elements) elements.length rest.isSome) items.length⟩) ∨
        (admitsArity elements rest.isSome items.length = true ∧
          Child.FirstFails direction (itemChildren elements rest items) error) := by
  refine ⟨fun path inputName schema value => ?_, fun fields index members distinctFields
    distinctKeys => ?_, fun elements rest isReadonly items => ?_⟩
  · exact transcodeAt_eq_anchored direction path inputName schema value
  · have goes : ∀ output, (Schema.struct fields index).transcode direction (.object members) =
        .ok output ↔ ∃ outputs, output = .object outputs ∧
          List.Forall₂ (Child.PutsOut direction) (objectChildren fields index members) outputs :=
      fun _ => transcode_struct_eq_ok_iff distinctFields distinctKeys
    refine ⟨?_, goes, fun error => transcode_struct_eq_error_iff⟩
    -- each child puts something out exactly if there is a list of outputs, one for each child
    simp only [goes, partsGo_iff, ← Child.exists_forall₂_putsOut_iff]
    rw [exists_comm]
    simp only [exists_eq_left]
  · refine ⟨?_, fun output => transcode_tuple_eq_ok_iff, fun error => transcode_tuple_eq_error_iff⟩
    simp only [transcode_tuple_eq_ok_iff, ← forall_mem_itemChildren_iff,
      ← Child.exists_forall₂_putsOut_iff, exists_and_left]
    rw [exists_comm]
    simp only [exists_eq_left]

/-- Of an object whose declared and whose undeclared member both fail, the declared one is reported,
though it comes later. -/
theorem transcode_isLocal_flags :
    let fields : List (Field Schema) := [⟨"a/b", booleanText "Y" "N", false, false, none, []⟩]
    let index : Option (IndexSignature Schema) := some ⟨.string, booleanText "Y" "N", false⟩
    let members : List (String × Value) := [("c", .null), ("a/b", .string "?")]
    (fields.map Field.name).Nodup ∧ (keys members).Nodup ∧
      ∃ error, (Schema.struct fields index).transcode .decode (.object members) = .error error ∧
        error.path = "/a~1b" ∧
        Child.FirstFails .decode (objectChildren fields index members) error := by
  intro fields index members
  have distinctFields : (fields.map Field.name).Nodup := by decide
  have distinctKeys : (keys members).Nodup := by decide
  have fails : ∃ error, (Schema.struct fields index).transcode .decode (.object members) =
      .error error ∧ error.path = "/a~1b" := ⟨_, rfl, rfl⟩
  obtain ⟨error, fails, place⟩ := fails
  have isLocal := (transcode_isLocal .decode).2.1 fields index members distinctFields distinctKeys
  exact ⟨distinctFields, distinctKeys, error, fails, place, (isLocal.2.2 error).mp fails⟩

end WireSchema.Schema

import Mathlib.Data.List.Forall2
import WireSchema.Proofs.Items
import WireSchema.Proofs.Members.Insertion
import WireSchema.Proofs.Schema.Parts
import WireSchema.Schema.View

/-! # What views tell

The view of a schema tells everything about it but the parameters of its conversions: schemas with
the same view are the same up to these (`view_eq_view_iff`). Flags, renames, annotations, index
signatures and rest types are shown only where they are set, each under a name of its own, so that
its absence has one meaning. A kind of leaf is told by its name, unless a kind from elsewhere bears
the name of one that is built in. -/

namespace WireSchema

open Members

/-! ## (1) Names of kinds -/

namespace LeafType

/-- The kinds that are built in. -/
def builtIn : List LeafType := [.unknown, .null, .boolean, .number, .string, .date]

/-- A kind **has a name of its own** if it is built in, or if no kind that is built in has its
name. -/
def HasOwnName (kind : LeafType) : Prop := kind ∈ builtIn ∨ kind.name ∉ builtIn.map name

instance (kind : LeafType) : Decidable kind.HasOwnName := instDecidableOr

/-- The names of the kinds that are built in differ. -/
theorem nodup_builtIn : (builtIn.map name).Nodup := by decide

/-- A kind with another name is one from elsewhere. -/
theorem eq_named_of_notMem {kind : LeafType} (foreign : kind.name ∉ builtIn.map name) :
    kind = .named kind.name := by
  cases kind with
  | named => rfl
  | _ => exact absurd (List.mem_map_of_mem (by decide)) foreign

/-- Kinds with names of their own are told apart by their names. -/
theorem eq_of_name_eq {left right : LeafType} (leftOwn : left.HasOwnName)
    (rightOwn : right.HasOwnName) (same : left.name = right.name) : left = right := by
  rcases leftOwn with leftHeld | leftForeign
  · rcases rightOwn with rightHeld | rightForeign
    · exact List.inj_on_of_nodup_map nodup_builtIn leftHeld rightHeld same
    · exact absurd (same ▸ List.mem_map_of_mem leftHeld) rightForeign
  · rcases rightOwn with rightHeld | rightForeign
    · exact absurd (same ▸ List.mem_map_of_mem rightHeld) leftForeign
    · rw [eq_named_of_notMem leftForeign, eq_named_of_notMem rightForeign, same]

end LeafType

namespace Schema

/-- The kinds that a schema mentions outside the types in it. -/
def kinds : Schema → List LeafType
  | .leaf kind => [kind]
  | .struct _ index => index.toList.map IndexSignature.key
  | _ => []

/-- All kinds in a schema, of leaves and of keys, have names of their own. -/
def HasOwnNames (schema : Schema) : Prop :=
  ∀ part ∈ schema.parts true, ∀ kind ∈ part.kinds, kind.HasOwnName

instance (schema : Schema) : Decidable schema.HasOwnNames := List.decidableBAll _ _

/-- Kinds with names of their own have them in the parts of a schema. -/
theorem HasOwnNames.mono {schema inner : Schema} (own : schema.HasOwnNames)
    (inside : ∀ part, part ∈ inner.parts true → part ∈ schema.parts true) : inner.HasOwnNames :=
  fun part held => own part (inside part held)

/-! ## (2) Schemas up to parameters -/

/-- **The same field** but for its type, which is related. -/
inductive SameField (sameType : Schema → Schema → Prop) : Field Schema → Field Schema → Prop
  /-- All that a field says but its type is the same. -/
  | of {left right : Schema} (name : String) (isOptional isReadonly : Bool)
      (rename : Option String) (annotations : List (String × Json)) (types : sameType left right) :
      SameField sameType ⟨name, left, isOptional, isReadonly, rename, annotations⟩
        ⟨name, right, isOptional, isReadonly, rename, annotations⟩

/-- **The same index signature** but for its type, which is related. -/
inductive SameSignature (sameType : Schema → Schema → Prop) :
    IndexSignature Schema → IndexSignature Schema → Prop
  /-- The kind of the keys and their mark are the same. -/
  | of {left right : Schema} (key : LeafType) (isReadonly : Bool) (types : sameType left right) :
      SameSignature sameType ⟨key, left, isReadonly⟩ ⟨key, right, isReadonly⟩

/-- **The same element** but for its type, which is related. -/
inductive SameElement (sameType : Schema → Schema → Prop) : Element Schema → Element Schema → Prop
  /-- The mark of the element is the same. -/
  | of {left right : Schema} (isOptional : Bool) (types : sameType left right) :
      SameElement sameType ⟨left, isOptional⟩ ⟨right, isOptional⟩

/-- **The same schema up to parameters**: node by node the same, but where conversions have the same
name they may do different things. -/
inductive SameUpToParameters : Schema → Schema → Prop
  /-- Leaves of one kind. -/
  | leaf (kind : LeafType) : SameUpToParameters (.leaf kind) (.leaf kind)
  /-- Structs with the same fields, in one order, and the same index signature. -/
  | struct {leftFields rightFields : List (Field Schema)}
      {leftIndex rightIndex : Option (IndexSignature Schema)}
      (fields : List.Forall₂ (SameField SameUpToParameters) leftFields rightFields)
      (index : Option.Rel (SameSignature SameUpToParameters) leftIndex rightIndex) :
      SameUpToParameters (.struct leftFields leftIndex) (.struct rightFields rightIndex)
  /-- Tuples with the same elements, rest type and mark. -/
  | tuple {leftElements rightElements : List (Element Schema)} {leftRest rightRest : Option Schema}
      (isReadonly : Bool)
      (elements : List.Forall₂ (SameElement SameUpToParameters) leftElements rightElements)
      (rest : Option.Rel SameUpToParameters leftRest rightRest) :
      SameUpToParameters (.tuple leftElements leftRest isReadonly)
        (.tuple rightElements rightRest isReadonly)
  /-- Codecs with the same sides, and with conversions of one name. -/
  | codec {leftSource rightSource leftTarget rightTarget : Schema}
      {leftConversion rightConversion : Conversion}
      (names : leftConversion.name = rightConversion.name)
      (sources : SameUpToParameters leftSource rightSource)
      (targets : SameUpToParameters leftTarget rightTarget) :
      SameUpToParameters (.codec leftSource leftTarget leftConversion)
        (.codec rightSource rightTarget rightConversion)

/-! ## (3) Fields -/

/-- Two schemas **look alike** if they have the same view. -/
abbrev LooksAlike (left right : Schema) : Prop := left.view = right.view

/-- A flag is found under its name, when it is set. -/
theorem find?_flagMember (name key : String) (isSet : Bool) :
    find? (flagMember name isSet) key =
      if name = key ∧ isSet = true then some (.bool true) else none := by
  cases isSet <;> simp [flagMember, find?_cons]

/-- Flags that are shown alike are equal. -/
@[simp] theorem flagMember_eq_iff {name : String} {left right : Bool} :
    flagMember name left = flagMember name right ↔ left = right := by
  cases left <;> cases right <;> simp [flagMember]

/-- A rename is found under its name, when there is one. -/
theorem find?_renameMember (rename : Option String) (key : String) :
    find? (renameMember rename) key = if "rename" = key then rename.map .string else none := by
  cases rename <;> simp [renameMember, find?_cons]

/-- Annotations are found under their name, when there are some. -/
theorem find?_annotationsMember (annotations : List (String × Json)) (key : String) :
    find? (annotationsMember annotations) key =
      if "annotations" = key ∧ annotations ≠ [] then some (.object annotations) else none := by
  cases annotations <;> simp [annotationsMember, find?_cons]

/-- The members of the view of a field. -/
def fieldMembers (field : Field Schema) : List (String × Json) :=
  [("name", .string field.name), ("type", view field.type)] ++
    flagMember "optional" field.isOptional ++ flagMember "readonly" field.isReadonly ++
    renameMember field.rename ++ annotationsMember field.annotations

/-- Each part of a field is shown under a name of its own: what is not shown is not set. -/
theorem find?_fieldMembers (field : Field Schema) :
    find? (fieldMembers field) "name" = some (.string field.name) ∧
      find? (fieldMembers field) "type" = some field.type.view ∧
      (find? (fieldMembers field) "optional").isSome = field.isOptional ∧
      (find? (fieldMembers field) "readonly").isSome = field.isReadonly ∧
      find? (fieldMembers field) "rename" = field.rename.map .string ∧
      find? (fieldMembers field) "annotations" =
        if field.annotations ≠ [] then some (.object field.annotations) else none := by
  simp only [fieldMembers, find?_cons, find?_append, find?_flagMember, find?_renameMember,
    find?_annotationsMember]
  cases field.isOptional <;> cases field.isReadonly <;> simp

/-- **A field is told by its members.** -/
theorem fieldMembers_eq_iff {left right : Field Schema} :
    fieldMembers left = fieldMembers right ↔
      SameField LooksAlike left right := by
  constructor
  · intro same
    obtain ⟨name, type, optional, readonly, rename, annotations⟩ := find?_fieldMembers right
    have shown := find?_fieldMembers left
    rw [same, name, type, optional, readonly, rename, annotations] at shown
    obtain ⟨sameName, sameType, sameOptional, sameReadonly, sameRename, sameAnnotations⟩ := shown
    have renames : right.rename = left.rename :=
      Option.map_injective (fun _ _ => Json.string.inj) sameRename
    have marks : right.annotations = left.annotations := by
      by_cases rightNone : right.annotations = [] <;> by_cases leftNone : left.annotations = [] <;>
        simp_all
    obtain ⟨_, _, _, _, _, _⟩ := left
    obtain ⟨_, _, _, _, _, _⟩ := right
    cases sameName
    cases sameOptional
    cases sameReadonly
    cases renames
    cases marks
    exact .of _ _ _ _ _ (Option.some.inj sameType).symm
  · rintro ⟨name, isOptional, isReadonly, rename, annotations, types⟩
    simp only [fieldMembers, types]

/-- Fields are viewed one by one. -/
theorem viewFields_eq_map (fields : List (Field Schema)) :
    viewFields fields = fields.map fun field => .object (fieldMembers field) := by
  induction fields with
  | nil => rfl
  | cons field rest induction => rw [viewFields, induction, List.map_cons, fieldMembers]

/-- Fields look alike exactly if they are the same one by one, up to the looks of their types. -/
theorem viewFields_eq_iff {lefts rights : List (Field Schema)} :
    viewFields lefts = viewFields rights ↔
      List.Forall₂ (SameField LooksAlike) lefts rights := by
  rw [viewFields_eq_map, viewFields_eq_map, ← List.forall₂_eq_eq_eq, List.forall₂_map_left_iff,
    List.forall₂_map_right_iff]
  simp only [Json.object.injEq, fieldMembers_eq_iff]

/-! ## (4) Elements, index signatures and rest types -/

/-- Elements are viewed one by one. -/
theorem viewElements_eq_map (elements : List (Element Schema)) :
    viewElements elements = elements.map fun element =>
      .object [("type", element.type.view), ("optional", .bool element.isOptional)] := by
  induction elements with
  | nil => rfl
  | cons element rest induction => rw [viewElements, induction, List.map_cons]

/-- Elements look alike exactly if they are the same one by one, up to the looks of their types. -/
theorem viewElements_eq_iff {lefts rights : List (Element Schema)} :
    viewElements lefts = viewElements rights ↔
      List.Forall₂ (SameElement LooksAlike) lefts rights := by
  have told (left right : Element Schema) :
      (Json.object [("type", left.type.view), ("optional", .bool left.isOptional)] =
        .object [("type", right.type.view), ("optional", .bool right.isOptional)]) ↔
      SameElement LooksAlike left right := by
    constructor
    · intro same
      obtain ⟨_, _⟩ := left
      obtain ⟨_, _⟩ := right
      simp only [Json.object.injEq, List.cons.injEq, Prod.mk.injEq, Json.bool.injEq, true_and,
        and_true] at same
      obtain ⟨types, rfl⟩ := same
      exact .of _ types
    · rintro ⟨isOptional, types⟩
      simp only [types]
  rw [viewElements_eq_map, viewElements_eq_map, ← List.forall₂_eq_eq_eq,
    List.forall₂_map_left_iff, List.forall₂_map_right_iff]
  simp only [told]

/-! ## (5) Schemas -/

/-- The view of a schema starts with its kind. -/
theorem exists_view_eq (schema : Schema) :
    ∃ shown others, schema.view = .object ((schema.kind, shown) :: others) := by
  cases schema <;> exact ⟨_, _, rfl⟩

/-- Schemas that look alike are of one kind. -/
theorem kind_eq_of_looksAlike {left right : Schema} (same : LooksAlike left right) :
    left.kind = right.kind := by
  obtain ⟨leftShown, leftOthers, leftView⟩ := exists_view_eq left
  obtain ⟨rightShown, rightOthers, rightView⟩ := exists_view_eq right
  rw [LooksAlike, leftView, rightView] at same
  simp only [Json.object.injEq, List.cons.injEq, Prod.mk.injEq] at same
  exact same.1.1

/-- Leaves look alike exactly if they have the same name. -/
theorem view_leaf_eq_iff {left right : LeafType} :
    LooksAlike (.leaf left) (.leaf right) ↔ left.name = right.name := by
  simp [LooksAlike, view]

/-- Index signatures look alike exactly if their keys, their values and their flags do. -/
theorem viewIndex_eq_iff {left right : Option (IndexSignature Schema)} :
    viewIndex left = viewIndex right ↔
      Option.Rel (fun one other => one.key.name = other.key.name ∧
        LooksAlike one.value other.value ∧ one.isReadonly = other.isReadonly) left right := by
  cases left <;> cases right <;> simp [viewIndex]

/-- Structs look alike exactly if their fields and their index signatures do. -/
theorem view_struct_eq_iff {leftFields rightFields : List (Field Schema)}
    {leftIndex rightIndex : Option (IndexSignature Schema)} :
    LooksAlike (.struct leftFields leftIndex) (.struct rightFields rightIndex) ↔
      List.Forall₂ (SameField LooksAlike) leftFields rightFields ∧
      viewIndex leftIndex = viewIndex rightIndex := by
  simp [LooksAlike, view, viewFields_eq_iff]

/-- Tuples look alike exactly if their elements, their rests and their flags do. -/
theorem view_tuple_eq_iff {leftElements rightElements : List (Element Schema)}
    {leftRest rightRest : Option Schema} {leftReadonly rightReadonly : Bool} :
    LooksAlike (.tuple leftElements leftRest leftReadonly)
        (.tuple rightElements rightRest rightReadonly) ↔
      List.Forall₂ (SameElement LooksAlike) leftElements rightElements ∧
      Option.Rel LooksAlike leftRest rightRest ∧
      leftReadonly = rightReadonly := by
  have others : viewRest leftRest ++ flagMember "readonly" leftReadonly =
        viewRest rightRest ++ flagMember "readonly" rightReadonly ↔
      Option.Rel LooksAlike leftRest rightRest ∧
        leftReadonly = rightReadonly := by
    cases leftRest <;> cases rightRest <;> cases leftReadonly <;> cases rightReadonly <;>
      simp [viewRest, flagMember]
  simp [LooksAlike, view, viewElements_eq_iff, others]

/-- Codecs look alike exactly if their sources and their targets do and their conversions have the
same name. -/
theorem view_codec_eq_iff {leftSource rightSource leftTarget rightTarget : Schema}
    {leftConversion rightConversion : Conversion} :
    LooksAlike (.codec leftSource leftTarget leftConversion)
        (.codec rightSource rightTarget rightConversion) ↔
      leftConversion.name = rightConversion.name ∧ LooksAlike leftSource rightSource ∧
      LooksAlike leftTarget rightTarget := by
  simp [LooksAlike, view]

/-! ## (6) What a view tells -/

/-- The kind of the keys of an index signature is a kind in the struct. -/
theorem HasOwnNames.key {fields : List (Field Schema)} {index : Option (IndexSignature Schema)}
    (own : (Schema.struct fields index).HasOwnNames) {signature : IndexSignature Schema}
    (held : signature ∈ index) : signature.key.HasOwnName := by
  refine own _ (mem_parts_self _) _ ?_
  exact List.mem_map_of_mem (Option.mem_toList.mpr held)

/-- **A view tells a schema** up to the parameters of its conversions. -/
theorem sameUpToParameters_of_looksAlike {left right : Schema} (leftOwn : left.HasOwnNames)
    (rightOwn : right.HasOwnNames) (same : LooksAlike left right) :
    SameUpToParameters left right := by
  induction left using Schema.induction generalizing right with
  | leaf kind =>
      cases right with
      | leaf other =>
          have kinds : kind = other := by
            refine LeafType.eq_of_name_eq ?_ ?_ (view_leaf_eq_iff.mp same)
            · exact leftOwn _ (mem_parts_self _) _ (List.mem_singleton_self kind)
            · exact rightOwn _ (mem_parts_self _) _ (List.mem_singleton_self other)
          cases kinds
          exact .leaf kind
      -- a view starts with the kind of the node, so that nodes of two kinds differ in it
      | _ => exact absurd (kind_eq_of_looksAlike same) (by simp [Schema.kind])
  | struct fields index fieldsInduction indexInduction =>
      cases right with
      | struct rightFields rightIndex =>
          obtain ⟨fieldsShown, indexShown⟩ := view_struct_eq_iff.mp same
          refine .struct ?_ ?_
          · refine Items.forall₂_imp_of_mem fieldsShown fun one held other otherHeld shown => ?_
            obtain ⟨_, _, _, _, _, types⟩ := shown
            exact .of _ _ _ _ _ (fieldsInduction _ held
              (leftOwn.mono fun _ => mem_parts_of_field held)
              (rightOwn.mono fun _ => mem_parts_of_field otherHeld) types)
          · cases viewIndex_eq_iff.mp indexShown with
            | none => exact .none
            | @some one other shown =>
                obtain ⟨names, types, marks⟩ := shown
                have keys := LeafType.eq_of_name_eq (leftOwn.key rfl) (rightOwn.key rfl) names
                have values := indexInduction one rfl
                  (leftOwn.mono fun _ => mem_parts_of_index rfl)
                  (rightOwn.mono fun _ => mem_parts_of_index rfl) types
                obtain ⟨_, _, _⟩ := one
                obtain ⟨_, _, _⟩ := other
                cases keys
                cases marks
                exact .some (.of _ _ values)
      | _ => exact absurd (kind_eq_of_looksAlike same) (by simp [Schema.kind])
  | tuple elements rest isReadonly elementsInduction restInduction =>
      cases right with
      | tuple rightElements rightRest rightReadonly =>
          obtain ⟨elementsShown, restShown, marks⟩ := view_tuple_eq_iff.mp same
          cases marks
          refine .tuple isReadonly ?_ ?_
          · refine Items.forall₂_imp_of_mem elementsShown fun one held other otherHeld shown => ?_
            obtain ⟨_, types⟩ := shown
            exact .of _ (elementsInduction _ held
              (leftOwn.mono fun _ => mem_parts_of_element held)
              (rightOwn.mono fun _ => mem_parts_of_element otherHeld) types)
          · cases restShown with
            | none => exact .none
            | some types =>
                exact .some (restInduction _ rfl
                  (leftOwn.mono fun _ => mem_parts_of_rest rfl)
                  (rightOwn.mono fun _ => mem_parts_of_rest rfl) types)
      | _ => exact absurd (kind_eq_of_looksAlike same) (by simp [Schema.kind])
  | codec source target conversion sourceInduction targetInduction =>
      cases right with
      | codec rightSource rightTarget rightConversion =>
          obtain ⟨names, sources, targets⟩ := view_codec_eq_iff.mp same
          refine .codec names ?_ ?_
          · exact sourceInduction (leftOwn.mono fun _ => mem_parts_of_source)
              (rightOwn.mono fun _ => mem_parts_of_source) sources
          · exact targetInduction (leftOwn.mono fun _ => mem_parts_of_target)
              (rightOwn.mono fun _ => mem_parts_of_target) targets
      | _ => exact absurd (kind_eq_of_looksAlike same) (by simp [Schema.kind])

/-- Parameters of conversions are not shown. -/
theorem SameUpToParameters.looksAlike {left right : Schema}
    (same : SameUpToParameters left right) : LooksAlike left right := by
  induction left using Schema.induction generalizing right with
  | leaf kind =>
      cases same
      rfl
  | struct fields index fieldsInduction indexInduction =>
      cases same with
      | struct sameFields sameIndex =>
          refine view_struct_eq_iff.mpr ⟨?_, ?_⟩
          · refine Items.forall₂_imp_of_mem sameFields fun one held other _ agrees => ?_
            obtain ⟨_, _, _, _, _, types⟩ := agrees
            exact .of _ _ _ _ _ (fieldsInduction _ held types)
          · refine viewIndex_eq_iff.mpr ?_
            cases sameIndex with
            | none => exact .none
            | some agrees =>
                obtain ⟨_, _, types⟩ := agrees
                exact .some ⟨rfl, indexInduction _ rfl types, rfl⟩
  | tuple elements rest isReadonly elementsInduction restInduction =>
      cases same with
      | tuple _ sameElements sameRest =>
          refine view_tuple_eq_iff.mpr ⟨?_, ?_, rfl⟩
          · refine Items.forall₂_imp_of_mem sameElements fun one held other _ agrees => ?_
            obtain ⟨_, types⟩ := agrees
            exact .of _ (elementsInduction _ held types)
          · cases sameRest with
            | none => exact .none
            | some types => exact .some (restInduction _ rfl types)
  | codec source target conversion sourceInduction targetInduction =>
      cases same with
      | codec names sources targets =>
          -- the view names a conversion and leaves its parameters out
          exact view_codec_eq_iff.mpr ⟨names, sourceInduction sources, targetInduction targets⟩

/-- **What the view of a schema tells.** Two schemas whose kinds have names of their own have the
same view exactly when they are the same up to the parameters of their conversions. -/
theorem view_eq_view_iff {left right : Schema} (leftOwn : left.HasOwnNames)
    (rightOwn : right.HasOwnNames) : left.view = right.view ↔ SameUpToParameters left right :=
  ⟨sameUpToParameters_of_looksAlike leftOwn rightOwn, SameUpToParameters.looksAlike⟩

/-- Two orders that show all there is, and differ only in the texts of their truth values. -/
theorem view_eq_view_iff_order :
    let order (truthy falsy : String) : Schema := .struct
      [⟨"paid", booleanText truthy falsy, true, true, some "p", [("since", .nat 2)]⟩,
        ⟨"sent", .tuple [⟨timestampText, false⟩, ⟨.leaf (.named "Email"), true⟩]
          (some unknown) true, false, false, none, []⟩]
      (some ⟨.named "Key", .leaf .null, true⟩)
    (order "Y" "N").HasOwnNames ∧ (order "1" "0").HasOwnNames ∧
      (order "Y" "N").view = (order "1" "0").view ∧
      SameUpToParameters (order "Y" "N") (order "1" "0") := by
  intro order
  have own : (order "Y" "N").HasOwnNames := by decide
  have otherOwn : (order "1" "0").HasOwnNames := by decide
  have shown : (order "Y" "N").view = (order "1" "0").view := rfl
  exact ⟨own, otherOwn, shown, (view_eq_view_iff own otherOwn).mp shown⟩

/-- A kind from elsewhere with the name of one that is built in is not told apart. -/
example : (Schema.leaf (.named "date")).view = (Schema.leaf .date).view := rfl

end Schema

end WireSchema

import WireSchema.Proofs.Members.Insertion
import WireSchema.Proofs.Runs
import WireSchema.Proofs.Schema.Parts
import WireSchema.Proofs.Transcoding.Outputs

/-! # Schemas with renames applied

What a schema looks like once its renames have been applied: every type inside it has its renames
applied, a struct without renames stays a struct, and a struct with renames becomes a codec, in
which the encoded names of the fields are distinct. Where no two fields share a name, the encoded
name of a field is its rename, or else its own name (`Renames.encodedName_of_mem`). -/

namespace WireSchema

open Members

/-! ## (1) Names on the two sides -/

/-- The name of a field on a side of a struct. -/
def Renames.nameOn (renames : Renames) : Side → String → String
  | .decoded => id
  | .encoded => renames.encodedName

/-- The names of the fields of a struct on a side. -/
def namesOn {τ : Type} (side : Side) (fields : List (Field τ)) : List String :=
  fields.map fun field => (Renames.ofFields fields).nameOn side field.name

/-- Only fields have renames. -/
theorem mem_names_of_mem_keys {τ : Type} {fields : List (Field τ)} {name : String}
    (renamed : name ∈ keys (Renames.ofFields fields)) : name ∈ fields.map Field.name := by
  rw [Renames.ofFields, mem_keys_ofList] at renamed
  obtain ⟨entry, held, rfl⟩ := List.mem_map.mp renamed
  obtain ⟨field, fieldHeld, same⟩ := List.mem_filterMap.mp held
  obtain ⟨encoded, _, rfl⟩ := Option.map_eq_some_iff.mp same
  exact List.mem_map_of_mem fieldHeld

/-- What is no field has the same name on both sides. -/
theorem Renames.encodedName_of_notMem {τ : Type} {fields : List (Field τ)} {name : String}
    (undeclared : name ∉ fields.map Field.name) :
    (Renames.ofFields fields).encodedName name = name := by
  have absent : find? (Renames.ofFields fields) name = none :=
    (find?_eq_none_iff _ _).mpr fun renamed => undeclared (mem_names_of_mem_keys renamed)
  rw [encodedName, absent, Option.getD_none]

/-- The names under which renames are declared are those of the fields that declare one. -/
theorem Renames.keys_filterMap_ofField {τ : Type} (fields : List (Field τ)) :
    keys (fields.filterMap ofField) =
      (fields.filter fun field => field.rename.isSome).map Field.name := by
  induction fields with
  | nil => rfl
  | cons field rest induction =>
      rw [List.filterMap_cons, List.filter_cons]
      cases renamed : field.rename with
      | none => simpa [ofField, renamed] using induction
      | some encoded => simpa [ofField, renamed, keys] using induction

/-- **The encoded name of a field** is its rename, or else its own name, where no two fields of the
struct share a name. -/
theorem Renames.encodedName_of_mem {τ : Type} {fields : List (Field τ)}
    (distinct : (fields.map Field.name).Nodup) {field : Field τ} (held : field ∈ fields) :
    (Renames.ofFields fields).encodedName field.name = field.rename.getD field.name := by
  have declared := keys_filterMap_ofField fields
  have unique : (keys (fields.filterMap ofField)).Nodup := by
    rw [declared]
    exact distinct.sublist (List.filter_sublist.map Field.name)
  rw [encodedName, ofFields, ofList_of_nodup unique]
  cases renamed : field.rename with
  | some encoded =>
      have entry : (field.name, encoded) ∈ fields.filterMap ofField :=
        List.mem_filterMap.mpr ⟨field, held, by rw [ofField, renamed]; rfl⟩
      rw [find?_of_mem unique entry, Option.getD_some]
  | none =>
      have absent : find? (fields.filterMap ofField) field.name = none := by
        rw [find?_eq_none_iff, declared]
        intro within
        obtain ⟨other, otherHeld, same⟩ := List.mem_map.mp within
        obtain ⟨otherHeld, isRenamed⟩ := List.mem_filter.mp otherHeld
        -- the only field of this name declares no rename
        cases List.inj_on_of_nodup_map distinct otherHeld held same
        simp [renamed] at isRenamed
      rw [absent, Option.getD_none]

/-- Without renames all names are the same on both sides. -/
theorem Renames.encodedName_of_isEmpty {renames : Renames} (none : renames.isEmpty = true)
    (name : String) : renames.encodedName name = name := by
  rw [List.isEmpty_iff.mp none]
  rfl

/-- Without renames, every name is its own on both sides. -/
theorem Renames.nameOn_of_isEmpty {renames : Renames} (none : renames.isEmpty = true)
    (side : Side) : renames.nameOn side = id := by
  cases side with
  | decoded => rfl
  | encoded => exact funext (encodedName_of_isEmpty none)

/-- A struct has renames exactly when one of its fields declares one. -/
theorem Renames.isEmpty_ofFields_iff {τ : Type} (fields : List (Field τ)) :
    (Renames.ofFields fields).isEmpty = true ↔ ∀ field ∈ fields, field.rename = none := by
  have entries : (Renames.ofFields fields).isEmpty = true ↔ fields.filterMap ofField = [] := by
    constructor
    · -- an entry brings in its name, and there are no names
      intro empty
      apply List.eq_nil_iff_forall_not_mem.mpr
      intro entry held
      have name : entry.1 ∈ keys (ofFields fields) :=
        (mem_keys_ofList _ _).mpr (mem_keys_of_mem held)
      rw [List.isEmpty_iff.mp empty] at name
      exact absurd name List.not_mem_nil
    · intro none
      rw [ofFields, none]
      rfl
  rw [entries, List.filterMap_eq_nil_iff]
  simp [ofField]

/-! ## (2) Conflicts -/

/-- A conflict is found unless the encoded names are distinct and none of them is claimed. -/
theorem conflictAfter_eq_none_iff {τ : Type} (renames : Renames) (claimed : List (String × String))
    (fields : List (Field τ)) :
    conflictAfter renames claimed fields = none ↔
      (fields.map fun field => renames.encodedName field.name).Nodup ∧
      ∀ field ∈ fields, renames.encodedName field.name ∉ keys claimed := by
  induction fields generalizing claimed with
  | nil => simp [conflictAfter]
  | cons field rest induction =>
      rw [conflictAfter, List.map_cons, List.nodup_cons, List.forall_mem_cons]
      cases found : find? claimed (renames.encodedName field.name) with
      | some first => simp [mem_keys_of_find? found]
      | none =>
          -- the name of the first field is claimed for all that follow
          have free := (find?_eq_none_iff _ _).mp found
          simp only [induction, mem_keys_insert, List.mem_map, not_exists, not_and, not_or]
          constructor
          · rintro ⟨distinct, apart⟩
            exact ⟨⟨fun other held => (apart other held).1, distinct⟩, free,
              fun other held => (apart other held).2⟩
          · rintro ⟨⟨apart, distinct⟩, _, unclaimed⟩
            exact ⟨distinct, fun other held => ⟨apart other held, unclaimed other held⟩⟩

/-- **No conflict** is found exactly when the encoded names are distinct. -/
theorem findConflict_eq_none_iff {τ : Type} (renames : Renames) (fields : List (Field τ)) :
    findConflict renames fields = none ↔
      (fields.map fun field => renames.encodedName field.name).Nodup := by
  simp [findConflict, conflictAfter_eq_none_iff]

/-- Where the encoded names of fields differ, so do their names. -/
theorem Renames.nodup_names_of_encodedNames {τ : Type} {renames : Renames} {fields : List (Field τ)}
    (distinct : (fields.map fun field => renames.encodedName field.name).Nodup) :
    (fields.map Field.name).Nodup := by
  have ofNames : ((fields.map Field.name).map renames.encodedName).Nodup := by
    rw [List.map_map]
    exact distinct
  exact ofNames.of_map

namespace Schema

/-! ## (3) The types inside -/

/-- The schema with its renames applied; where they conflict, the schema itself. -/
def renamed (schema : Schema) : Schema := schema.applyRenames.toOption.getD schema

/-- A field whose type has its renames applied. -/
def renamedField (field : Field Schema) : Field Schema := { field with type := field.type.renamed }

/-- An index signature whose type has its renames applied. -/
def renamedIndex (index : IndexSignature Schema) : IndexSignature Schema :=
  { index with value := index.value.renamed }

/-- An element whose type has its renames applied. -/
def renamedElement (element : Element Schema) : Element Schema :=
  { element with type := element.type.renamed }

/-- A leaf has nothing to rename. -/
theorem renamed_leaf (kind : LeafType) : (leaf kind).renamed = leaf kind := rfl

/-- Where the renames apply, the renamed schema is what they give. -/
theorem renamed_of_applyRenames {schema applied : Schema}
    (renames : schema.applyRenames = .ok applied) : schema.renamed = applied := by
  rw [renamed, renames]
  rfl

/-- Where the renames apply, they give the renamed schema. -/
theorem applyRenames_eq_renamed {schema applied : Schema}
    (renames : schema.applyRenames = .ok applied) : schema.applyRenames = .ok schema.renamed := by
  rw [renamed_of_applyRenames renames, renames]

/-- Where the renames of fields apply, they apply in each type, and the fields are renamed one by
one. -/
theorem applyRenamesFields_eq_ok {fields applied : List (Field Schema)}
    (renames : applyRenamesFields fields = .ok applied) :
    (∀ field ∈ fields, field.type.applyRenames = .ok field.type.renamed) ∧
      applied = fields.map renamedField := by
  induction fields generalizing applied with
  | nil =>
      cases renames
      exact ⟨by simp, rfl⟩
  | cons field rest induction =>
      rw [applyRenamesFields] at renames
      obtain ⟨type, first, others⟩ := bind_eq_ok_iff.mp renames
      obtain ⟨later, rest, same⟩ := bind_eq_ok_iff.mp others
      cases same
      obtain ⟨each, rfl⟩ := induction rest
      rw [List.forall_mem_cons]
      refine ⟨⟨applyRenames_eq_renamed first, each⟩, ?_⟩
      rw [List.map_cons, renamedField, renamed_of_applyRenames first]

/-- Where the renames of an index signature apply, they apply in its value. -/
theorem applyRenamesIndex_eq_ok {index applied : Option (IndexSignature Schema)}
    (renames : applyRenamesIndex index = .ok applied) :
    (∀ signature ∈ index, signature.value.applyRenames = .ok signature.value.renamed) ∧
      applied = index.map renamedIndex := by
  cases index with
  | none =>
      cases renames
      exact ⟨by simp, rfl⟩
  | some signature =>
      rw [applyRenamesIndex] at renames
      obtain ⟨value, first, same⟩ := bind_eq_ok_iff.mp renames
      cases same
      refine ⟨?_, ?_⟩
      · rintro _ ⟨⟩
        exact applyRenames_eq_renamed first
      · rw [Option.map_some, renamedIndex, renamed_of_applyRenames first]

/-- Where the renames of elements apply, they apply in each type, and the elements are renamed one
by one. -/
theorem applyRenamesElements_eq_ok {elements applied : List (Element Schema)}
    (renames : applyRenamesElements elements = .ok applied) :
    (∀ element ∈ elements, element.type.applyRenames = .ok element.type.renamed) ∧
      applied = elements.map renamedElement := by
  induction elements generalizing applied with
  | nil =>
      cases renames
      exact ⟨by simp, rfl⟩
  | cons element rest induction =>
      rw [applyRenamesElements] at renames
      obtain ⟨type, first, others⟩ := bind_eq_ok_iff.mp renames
      obtain ⟨later, rest, same⟩ := bind_eq_ok_iff.mp others
      cases same
      obtain ⟨each, rfl⟩ := induction rest
      rw [List.forall_mem_cons]
      refine ⟨⟨applyRenames_eq_renamed first, each⟩, ?_⟩
      rw [List.map_cons, renamedElement, renamed_of_applyRenames first]

/-- Where the renames of a rest apply, they apply in its type. -/
theorem applyRenamesRest_eq_ok {rest applied : Option Schema}
    (renames : applyRenamesRest rest = .ok applied) :
    (∀ type ∈ rest, type.applyRenames = .ok type.renamed) ∧ applied = rest.map renamed := by
  cases rest with
  | none =>
      cases renames
      exact ⟨by simp, rfl⟩
  | some type =>
      rw [applyRenamesRest] at renames
      obtain ⟨value, first, same⟩ := bind_eq_ok_iff.mp renames
      cases same
      refine ⟨?_, ?_⟩
      · rintro _ ⟨⟩
        exact applyRenames_eq_renamed first
      · rw [Option.map_some, renamed_of_applyRenames first]

/-! ## (4) Whole schemas -/

/-- What a struct becomes when its renames do not conflict. -/
def renamedStruct (fields : List (Field Schema)) (index : Option (IndexSignature Schema)) :
    Schema :=
  if (Renames.ofFields fields).isEmpty then
    .struct (fields.map renamedField) (index.map renamedIndex)
  else
    renameCodec (Renames.ofFields fields) (fields.map renamedField) (index.map renamedIndex)

/-- **A struct with renames applied**: the types inside it have theirs applied, and if it has
renames itself, the encoded names of its fields are distinct. -/
theorem applyRenames_struct_eq_ok {fields : List (Field Schema)}
    {index : Option (IndexSignature Schema)} {applied : Schema}
    (renames : (Schema.struct fields index).applyRenames = .ok applied) :
    (∀ field ∈ fields, field.type.applyRenames = .ok field.type.renamed) ∧
      (∀ signature ∈ index, signature.value.applyRenames = .ok signature.value.renamed) ∧
      ((Renames.ofFields fields).isEmpty = false → (namesOn .encoded fields).Nodup) ∧
      applied = renamedStruct fields index := by
  rw [applyRenames] at renames
  rw [renamedStruct]
  cases plain : (Renames.ofFields fields).isEmpty with
  | true =>
      simp only [plain, if_true] at renames
      obtain ⟨types, first, later⟩ := bind_eq_ok_iff.mp renames
      obtain ⟨indexType, second, same⟩ := bind_eq_ok_iff.mp later
      cases same
      obtain ⟨eachField, rfl⟩ := applyRenamesFields_eq_ok first
      obtain ⟨eachIndex, rfl⟩ := applyRenamesIndex_eq_ok second
      exact ⟨eachField, eachIndex, nofun, rfl⟩
  | false =>
      simp only [plain, Bool.false_eq_true, if_false] at renames
      -- no conflict among the names, or the renames would not apply
      cases conflict : findConflict (Renames.ofFields fields) fields with
      | some conflict' =>
          rw [conflict] at renames
          cases renames
      | none =>
          simp only [conflict] at renames
          obtain ⟨types, first, later⟩ := bind_eq_ok_iff.mp renames
          obtain ⟨indexType, second, same⟩ := bind_eq_ok_iff.mp later
          cases same
          obtain ⟨eachField, rfl⟩ := applyRenamesFields_eq_ok first
          obtain ⟨eachIndex, rfl⟩ := applyRenamesIndex_eq_ok second
          exact ⟨eachField, eachIndex, fun _ => (findConflict_eq_none_iff _ _).mp conflict, rfl⟩

/-- The types of the slots of a tuple are renamed one by one. -/
theorem slotType_renamed (elements : List (Element Schema)) (rest : Option Schema)
    (position : Nat) :
    slotType (elements.map renamedElement) (rest.map renamed) position =
      (slotType elements rest position).renamed := by
  rw [slotType, slotType, List.getElem?_map]
  cases elements[position]? with
  | some element => rfl
  | none => cases rest <;> rfl

/-- Renaming keeps the number of required elements. -/
theorem requiredCount_renamed (elements : List (Element Schema)) :
    requiredCount (elements.map renamedElement) = requiredCount elements := by
  rw [requiredCount, List.filter_map, List.length_map]
  rfl

/-- Renaming keeps the lengths that a tuple admits. -/
theorem admitsArity_renamed (elements : List (Element Schema)) (rest : Option Schema)
    (count : Nat) :
    admitsArity (elements.map renamedElement) (rest.map renamed).isSome count =
      admitsArity elements rest.isSome count := by
  rw [admitsArity, admitsArity, requiredCount_renamed, List.length_map, Option.isSome_map]

/-- Where the renames of a tuple apply, they apply in its elements and its rest. -/
theorem applyRenames_tuple_eq_ok {elements : List (Element Schema)} {rest : Option Schema}
    {isReadonly : Bool} {applied : Schema}
    (renames : (Schema.tuple elements rest isReadonly).applyRenames = .ok applied) :
    (∀ element ∈ elements, element.type.applyRenames = .ok element.type.renamed) ∧
      (∀ type ∈ rest, type.applyRenames = .ok type.renamed) ∧
      applied = .tuple (elements.map renamedElement) (rest.map renamed) isReadonly := by
  rw [applyRenames] at renames
  obtain ⟨types, first, later⟩ := bind_eq_ok_iff.mp renames
  obtain ⟨restType, second, same⟩ := bind_eq_ok_iff.mp later
  cases same
  obtain ⟨eachElement, rfl⟩ := applyRenamesElements_eq_ok first
  obtain ⟨eachRest, rfl⟩ := applyRenamesRest_eq_ok second
  exact ⟨eachElement, eachRest, rfl⟩

/-- Where the renames of a codec apply, they apply in its source, and the target stays as it is. -/
theorem applyRenames_codec_eq_ok {source target : Schema} {conversion : Conversion}
    {applied : Schema}
    (renames : (Schema.codec source target conversion).applyRenames = .ok applied) :
    source.applyRenames = .ok source.renamed ∧
      applied = .codec source.renamed target conversion := by
  rw [applyRenames] at renames
  obtain ⟨type, first, same⟩ := bind_eq_ok_iff.mp renames
  cases same
  exact ⟨applyRenames_eq_renamed first, by rw [renamed_of_applyRenames first]⟩

/-- Where the names of the fields are distinct and renames do not conflict, the names are distinct
on both sides. -/
theorem nodup_namesOn {fields : List (Field Schema)} {index : Option (IndexSignature Schema)}
    {applied : Schema} (distinct : (fields.map Field.name).Nodup)
    (renames : (Schema.struct fields index).applyRenames = .ok applied) (side : Side) :
    (namesOn side fields).Nodup := by
  cases side with
  | decoded => exact distinct
  | encoded =>
      cases plain : (Renames.ofFields fields).isEmpty with
      | false => exact (applyRenames_struct_eq_ok renames).2.2.1 plain
      | true =>
          have same : namesOn .encoded fields = fields.map Field.name :=
            List.map_congr_left fun field _ => Renames.encodedName_of_isEmpty plain field.name
          rw [same]
          exact distinct

/-! ## (5) Open structs with renames -/

/-- Some struct outside the targets of codecs is open and has a renamed field. -/
def HasOpenRenames (schema : Schema) : Prop :=
  ∃ fields signature, .struct fields (some signature) ∈ schema.parts false ∧
    ∃ field ∈ fields, field.rename.isSome

/-- An open struct with renames is one of the open renames of each schema around it. -/
theorem hasOpenRenames_of_isEmpty {schema : Schema} {fields : List (Field Schema)}
    {signature : IndexSignature Schema}
    (held : .struct fields (some signature) ∈ schema.parts false)
    (renames : (Renames.ofFields fields).isEmpty = false) : schema.HasOpenRenames := by
  refine ⟨fields, signature, held, ?_⟩
  by_contra unrenamed
  have all : ∀ field ∈ fields, field.rename = none := by
    intro field fieldHeld
    cases declared : field.rename with
    | none => rfl
    | some name => exact absurd ⟨field, fieldHeld, by rw [declared]; rfl⟩ unrenamed
  rw [(Renames.isEmpty_ofFields_iff fields).mpr all] at renames
  cases renames

end Schema

end WireSchema

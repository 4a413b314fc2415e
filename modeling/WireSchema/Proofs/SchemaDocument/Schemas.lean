import Mathlib.Data.Option.Basic
import WireSchema.Proofs.Items
import WireSchema.Proofs.Runs
import WireSchema.Proofs.Schema.Parts
import WireSchema.SchemaDocument.Basic

/-! # Schemas of documents

The schemas that documents describe are **documented**: made of leaves, of structs whose fields have
distinct names, of tuples, and of the two codecs that documents can name. -/

namespace WireSchema

/-! ## (1) Induction -/

/-- Induction over schema documents: what holds of all documents inside a struct or a tuple holds of
it. -/
@[elab_as_elim]
theorem SchemaDocument.induction {motive : SchemaDocument → Prop}
    (leaf : ∀ kind, motive (.leaf kind))
    (struct : ∀ fields index, (∀ field ∈ fields, motive field.type) →
      (∀ entry ∈ index, motive entry.value) → motive (.struct fields index))
    (tuple : ∀ elements rest isReadonly, (∀ element ∈ elements, motive element.type) →
      (∀ type ∈ rest, motive type) → motive (.tuple elements rest isReadonly))
    (timestampText : motive .timestampText)
    (booleanText : ∀ truthy falsy, motive (.booleanText truthy falsy))
    (document : SchemaDocument) : motive document :=
  @SchemaDocument.rec motive
    (fun fields => ∀ field ∈ fields, motive field.type)
    (fun index => ∀ entry ∈ index, motive entry.value)
    (fun elements => ∀ element ∈ elements, motive element.type)
    (fun rest => ∀ type ∈ rest, motive type)
    (fun field => motive field.type)
    (fun entry => motive entry.value)
    (fun element => motive element.type)
    leaf struct tuple timestampText booleanText
    (by simp)
    (fun _ _ head tail => List.forall_mem_cons.mpr ⟨head, tail⟩)
    (by simp)
    (fun _ inner => by simpa using inner)
    (by simp)
    (fun _ _ head tail => List.forall_mem_cons.mpr ⟨head, tail⟩)
    (by simp)
    (fun _ inner => by simpa using inner)
    (fun _ _ _ _ _ _ inner => inner)
    (fun _ _ _ inner => inner)
    (fun _ _ inner => inner)
    document

/-! ## (2) Documented schemas -/

/-- **A documented schema** is one that a schema document can describe. -/
inductive Schema.Documented : Schema → Prop
  /-- A leaf of any kind. -/
  | leaf (kind : LeafType) : Documented (.leaf kind)
  /-- A struct with distinct names. -/
  | struct {fields : List (Field Schema)} {index : Option (IndexSignature Schema)}
      (names : (fields.map Field.name).Nodup) (types : ∀ field ∈ fields, Documented field.type)
      (indexType : ∀ signature ∈ index, Documented signature.value) :
      Documented (.struct fields index)
  /-- A tuple. -/
  | tuple {elements : List (Element Schema)} {rest : Option Schema} {isReadonly : Bool}
      (types : ∀ element ∈ elements, Documented element.type)
      (restType : ∀ type ∈ rest, Documented type) : Documented (.tuple elements rest isReadonly)
  /-- Timestamps as texts. -/
  | timestampText : Documented .timestampText
  /-- Truth values as texts. -/
  | booleanText (truthy falsy : String) : Documented (.booleanText truthy falsy)

/-- In a documented schema the fields of each struct have distinct names. -/
theorem Schema.Documented.nodup_names {schema : Schema} (documented : schema.Documented)
    {entersTargets : Bool} {fields : List (Field Schema)} {index : Option (IndexSignature Schema)}
    (held : .struct fields index ∈ schema.parts entersTargets) :
    (fields.map Field.name).Nodup := by
  induction documented with
  | leaf kind => simp [parts] at held
  | struct names _ _ fieldsInduction indexInduction =>
      rcases mem_parts_struct.mp held with
        same | ⟨field, fieldHeld, inner⟩ | ⟨signature, isOpen, inner⟩
      · cases same
        exact names
      · exact fieldsInduction field fieldHeld inner
      · exact indexInduction signature isOpen inner
  | tuple _ _ elementsInduction restInduction =>
      rcases mem_parts_tuple.mp held with
        same | ⟨element, elementHeld, inner⟩ | ⟨type, isRest, inner⟩
      · cases same
      · exact elementsInduction element elementHeld inner
      · exact restInduction type isRest inner
  | timestampText => cases entersTargets <;> simp [Schema.timestampText, parts] at held
  | booleanText truthy falsy => cases entersTargets <;> simp [Schema.booleanText, parts] at held

namespace SchemaDocument

/-! ## (3) What documents describe -/

/-- A document describes a schema at some place. -/
def Describes (document : SchemaDocument) (schema : Schema) : Prop :=
  ∃ place, document.toSchemaAt place = .ok schema

/-- A field describes one that differs from it in its type only, which its own type describes. -/
def DescribesField (entry : Field SchemaDocument) (field : Field Schema) : Prop :=
  ∃ type, entry.type.Describes type ∧ field = { entry with type := type }

/-- An index signature describes one whose keys are texts unless another kind is given. -/
def DescribesEntry (entry : IndexEntry SchemaDocument) (signature : IndexSignature Schema) : Prop :=
  ∃ type, entry.value.Describes type ∧ signature = ⟨entry.key.getD .string, type, entry.isReadonly⟩

/-- An element describes one that differs from it in its type only. -/
def DescribesElement (entry : Element SchemaDocument) (element : Element Schema) : Prop :=
  ∃ type, entry.type.Describes type ∧ element = { entry with type := type }

/-- Described fields bear the names of the fields that describe them. -/
theorem names_of_describesField {fields : List (Field SchemaDocument)}
    {described : List (Field Schema)} (describes : List.Forall₂ DescribesField fields described) :
    described.map Field.name = fields.map Field.name := by
  induction describes with
  | nil => rfl
  | cons first _ induction =>
      obtain ⟨type, _, rfl⟩ := first
      rw [List.map_cons, List.map_cons, induction]

/-- Fields describe others one by one, and none of them bears a name that was seen before. -/
theorem toSchemaFields_eq_ok {place : String} {seen : List String}
    {fields : List (Field SchemaDocument)} {described : List (Field Schema)}
    (describes : toSchemaFields place seen fields = .ok described) :
    (fields.map Field.name).Nodup ∧ (∀ field ∈ fields, field.name ∉ seen) ∧
      List.Forall₂ DescribesField fields described := by
  induction fields generalizing seen described with
  | nil =>
      cases describes
      exact ⟨List.nodup_nil, nofun, .nil⟩
  | cons entry rest induction =>
      rw [toSchemaFields] at describes
      by_cases repeated : seen.contains entry.name = true
      · rw [if_pos repeated] at describes
        cases describes
      · rw [if_neg repeated] at describes
        obtain ⟨type, first, others⟩ := bind_eq_ok_iff.mp describes
        obtain ⟨later, following, same⟩ := bind_eq_ok_iff.mp others
        cases same
        obtain ⟨distinct, unseen, origins⟩ := induction following
        rw [List.map_cons, List.nodup_cons, List.forall_mem_cons]
        refine ⟨⟨?_, distinct⟩, ⟨?_, ?_⟩, .cons ⟨type, ⟨_, first⟩, rfl⟩ origins⟩
        · -- the name of the first field counts as seen for all that follow
          intro held
          obtain ⟨field, fieldHeld, sameName⟩ := List.mem_map.mp held
          exact unseen field fieldHeld (by simp [sameName])
        · exact fun held => repeated (List.contains_iff_mem.mpr held)
        · exact fun field held known => unseen field held (List.mem_cons_of_mem _ known)

/-- An index signature is described by its entry. -/
theorem toSchemaIndex_eq_ok {place : String} {index : Option (IndexEntry SchemaDocument)}
    {described : Option (IndexSignature Schema)}
    (describes : toSchemaIndex place index = .ok described) :
    Option.Rel DescribesEntry index described := by
  cases index with
  | none =>
      cases describes
      exact .none
  | some entry =>
      rw [toSchemaIndex] at describes
      obtain ⟨type, origin, same⟩ := bind_eq_ok_iff.mp describes
      cases same
      exact .some ⟨type, ⟨_, origin⟩, rfl⟩

/-- Elements describe others one by one. -/
theorem toSchemaElements_eq_ok {place : String} {position : Nat}
    {elements : List (Element SchemaDocument)} {described : List (Element Schema)}
    (describes : toSchemaElements place position elements = .ok described) :
    List.Forall₂ DescribesElement elements described := by
  induction elements generalizing position described with
  | nil =>
      cases describes
      exact .nil
  | cons entry rest induction =>
      rw [toSchemaElements] at describes
      obtain ⟨type, first, others⟩ := bind_eq_ok_iff.mp describes
      obtain ⟨later, following, same⟩ := bind_eq_ok_iff.mp others
      cases same
      exact .cons ⟨type, ⟨_, first⟩, rfl⟩ (induction following)

/-- A rest is described by its document. -/
theorem toSchemaRest_eq_ok {place : String} {rest : Option SchemaDocument}
    {described : Option Schema} (describes : toSchemaRest place rest = .ok described) :
    Option.Rel Describes rest described := by
  cases rest with
  | none =>
      cases describes
      exact .none
  | some document =>
      rw [toSchemaRest] at describes
      obtain ⟨type, origin, same⟩ := bind_eq_ok_iff.mp describes
      cases same
      exact .some ⟨_, origin⟩

/-- **A struct describes** a struct, field by field, and the names of its fields are distinct. -/
theorem describes_struct {fields : List (Field SchemaDocument)}
    {index : Option (IndexEntry SchemaDocument)} {schema : Schema}
    (describes : (SchemaDocument.struct fields index).Describes schema) :
    ∃ types signature, schema = .struct types signature ∧ (fields.map Field.name).Nodup ∧
      List.Forall₂ DescribesField fields types ∧ Option.Rel DescribesEntry index signature := by
  obtain ⟨place, describes⟩ := describes
  rw [toSchemaAt] at describes
  obtain ⟨types, first, later⟩ := bind_eq_ok_iff.mp describes
  obtain ⟨signature, second, same⟩ := bind_eq_ok_iff.mp later
  cases same
  obtain ⟨names, _, ofFields⟩ := toSchemaFields_eq_ok first
  exact ⟨types, signature, rfl, names, ofFields, toSchemaIndex_eq_ok second⟩

/-- **A tuple describes** a tuple, element by element. -/
theorem describes_tuple {elements : List (Element SchemaDocument)} {rest : Option SchemaDocument}
    {isReadonly : Bool} {schema : Schema}
    (describes : (SchemaDocument.tuple elements rest isReadonly).Describes schema) :
    ∃ types restType, schema = .tuple types restType isReadonly ∧
      List.Forall₂ DescribesElement elements types ∧ Option.Rel Describes rest restType := by
  obtain ⟨place, describes⟩ := describes
  rw [toSchemaAt] at describes
  obtain ⟨types, first, later⟩ := bind_eq_ok_iff.mp describes
  obtain ⟨restType, second, same⟩ := bind_eq_ok_iff.mp later
  cases same
  exact ⟨types, restType, rfl, toSchemaElements_eq_ok first, toSchemaRest_eq_ok second⟩

/-- What a document describes at any place is documented. -/
theorem documented_of_describes {document : SchemaDocument} {schema : Schema}
    (describes : document.Describes schema) : schema.Documented := by
  induction document using SchemaDocument.induction generalizing schema with
  | leaf kind =>
      obtain ⟨_, ⟨⟩⟩ := describes
      exact .leaf kind
  | struct fields index fieldsInduction indexInduction =>
      obtain ⟨types, signature, rfl, names, ofFields, ofIndex⟩ := describes_struct describes
      -- the fields of the schema are named as those of the document
      rw [← names_of_describesField ofFields] at names
      refine .struct names (fun field held => ?_) fun signature held => ?_
      · obtain ⟨entry, entryHeld, type, origin, rfl⟩ := Items.exists_of_mem_forall₂ ofFields held
        exact fieldsInduction entry entryHeld origin
      · cases held
        cases ofIndex with
        | some described =>
            obtain ⟨type, origin, rfl⟩ := described
            exact indexInduction _ rfl origin
  | tuple elements rest isReadonly elementsInduction restInduction =>
      obtain ⟨types, restType, rfl, ofElements, ofRest⟩ := describes_tuple describes
      refine .tuple (fun element held => ?_) fun type held => ?_
      · obtain ⟨entry, entryHeld, type, origin, rfl⟩ :=
          Items.exists_of_mem_forall₂ ofElements held
        exact elementsInduction entry entryHeld origin
      · cases held
        cases ofRest with
        | some described => exact restInduction _ rfl described
  | timestampText =>
      obtain ⟨_, ⟨⟩⟩ := describes
      exact .timestampText
  | booleanText truthy falsy =>
      obtain ⟨_, ⟨⟩⟩ := describes
      exact .booleanText truthy falsy

/-- **What a document describes is documented.** -/
theorem documented_of_toSchema {document : SchemaDocument} {schema : Schema}
    (describes : document.toSchema = .ok schema) : schema.Documented :=
  documented_of_describes ⟨_, describes⟩

end SchemaDocument

end WireSchema

import Mathlib.Data.List.Forall2
import Mathlib.Data.List.Induction
import Mathlib.Data.Option.Basic
import WireSchema.Proofs.SchemaDocument.Schemas

/-! # Repeated names

A schema document describes no schema exactly when some struct in it repeats the name of a field.
The fields of a document are looked at in an order, each before the types inside it, and the first
field that repeats a name is reported with the place of its struct. What is described otherwise has
the shape of the document, node by node (`toSchema_spec`). -/

namespace WireSchema.SchemaDocument

/-! ## (1) Places of structs -/

/-- **What stands inside a document**: the documents that it is made of, each with its own place. -/
inductive Leads : String → SchemaDocument → String → SchemaDocument → Prop
  /-- The document itself. -/
  | here (place : String) (document : SchemaDocument) : Leads place document place document
  /-- What stands in the type of a field. -/
  | field {place inner : String} {document : SchemaDocument} {fields : List (Field SchemaDocument)}
      {index : Option (IndexEntry SchemaDocument)} {field : Field SchemaDocument}
      (held : field ∈ fields)
      (leads : Leads (fieldPlace place field.name) field.type inner document) :
      Leads place (.struct fields index) inner document
  /-- What stands in an index type. -/
  | index {place inner : String} {document : SchemaDocument} {fields : List (Field SchemaDocument)}
      {entry : IndexEntry SchemaDocument}
      (leads : Leads (restPlace place) entry.value inner document) :
      Leads place (.struct fields (some entry)) inner document
  /-- What stands in the type of an element. -/
  | element {place inner : String} {document : SchemaDocument}
      {elements : List (Element SchemaDocument)} {rest : Option SchemaDocument} {isReadonly : Bool}
      {position : Nat} {element : Element SchemaDocument}
      (found : elements[position]? = some element)
      (leads : Leads (elementPlace place position) element.type inner document) :
      Leads place (.tuple elements rest isReadonly) inner document
  /-- What stands in a rest type. -/
  | rest {place inner : String} {document : SchemaDocument}
      {elements : List (Element SchemaDocument)} {rest : SchemaDocument} {isReadonly : Bool}
      (leads : Leads (restPlace place) rest inner document) :
      Leads place (.tuple elements (some rest) isReadonly) inner document

/-! ## (2) Fields in order -/

/-- **The site of a field**: the place of its struct, and the names of the fields before it. -/
structure Site where
  /-- The place of the struct. -/
  place : String
  /-- The names of the fields before. -/
  before : List String
  /-- The name of the field. -/
  name : String

/-- A site repeats a name. -/
def Site.IsRepeated (site : Site) : Prop := site.name ∈ site.before

instance (site : Site) : Decidable site.IsRepeated := List.instDecidableMemOfLawfulBEq _ _

mutual

/-- **The sites of a document at a place**, in document order: each field comes before the fields in
its type, and these before the next field; the index type comes behind all fields, and the rest type
behind all elements. -/
def sites (place : String) : SchemaDocument → List Site
  | .leaf _ | .timestampText | .booleanText _ _ => []
  | .struct fields index => sitesOfFields place [] fields ++ sitesOfIndex place index
  | .tuple elements rest _ => sitesOfElements place 0 elements ++ sitesOfRest place rest

/-- The sites of fields behind fields of the given names. -/
def sitesOfFields (place : String) : List String → List (Field SchemaDocument) → List Site
  | _, [] => []
  | before, field :: rest =>
      ⟨place, before, field.name⟩ ::
        (sites (fieldPlace place field.name) field.type ++
          sitesOfFields place (before ++ [field.name]) rest)

/-- The sites of an index type. -/
def sitesOfIndex (place : String) : Option (IndexEntry SchemaDocument) → List Site
  | none => []
  | some entry => sites (restPlace place) entry.value

/-- The sites of elements from a position on. -/
def sitesOfElements (place : String) : Nat → List (Element SchemaDocument) → List Site
  | _, [] => []
  | position, element :: rest =>
      sites (elementPlace place position) element.type ++ sitesOfElements place (position + 1) rest

/-- The sites of a rest type. -/
def sitesOfRest (place : String) : Option SchemaDocument → List Site
  | none => []
  | some rest => sites (restPlace place) rest

end

/-- The site of a field among the fields of a struct at a place. -/
def IsSiteOf (place : String) (fields : List (Field SchemaDocument)) (site : Site) : Prop :=
  ∃ front field behind, fields = front ++ field :: behind ∧
    site = ⟨place, front.map Field.name, field.name⟩

/-- The sites of fields are one for each field, told by the fields in front of it, and those in the
types. -/
theorem mem_sitesOfFields_iff {place : String} {before : List String}
    {fields : List (Field SchemaDocument)} {site : Site} :
    site ∈ sitesOfFields place before fields ↔
      (∃ front field behind, fields = front ++ field :: behind ∧
        site = ⟨place, before ++ front.map Field.name, field.name⟩) ∨
      ∃ field ∈ fields, site ∈ sites (fieldPlace place field.name) field.type := by
  induction fields generalizing before with
  | nil => simp [sitesOfFields]
  | cons field rest induction =>
      rw [sitesOfFields, List.mem_cons, List.mem_append, induction, List.exists_mem_cons_iff]
      -- the field is the first one itself, or one behind the first
      have split : (∃ front other behind, field :: rest = front ++ other :: behind ∧
          site = ⟨place, before ++ front.map Field.name, other.name⟩) ↔
          site = ⟨place, before, field.name⟩ ∨
            ∃ front other behind, rest = front ++ other :: behind ∧
              site = ⟨place, before ++ [field.name] ++ front.map Field.name, other.name⟩ := by
        constructor
        · rintro ⟨_ | ⟨_, front⟩, other, behind, ⟨⟩, rfl⟩
          · exact Or.inl (by simp)
          · exact Or.inr ⟨front, other, behind, rfl, by simp⟩
        · rintro (rfl | ⟨front, other, behind, rfl, rfl⟩)
          · exact ⟨[], field, rest, rfl, by simp⟩
          · exact ⟨field :: front, other, behind, rfl, by simp⟩
      rw [split, or_assoc, or_left_comm (a := site ∈ sites _ _)]

/-- The sites of elements are those in the types, under their positions. -/
theorem mem_sitesOfElements_iff {place : String} {start : Nat}
    {elements : List (Element SchemaDocument)} {site : Site} :
    site ∈ sitesOfElements place start elements ↔
      ∃ position element, elements[position]? = some element ∧
        site ∈ sites (elementPlace place (start + position)) element.type := by
  induction elements generalizing start with
  | nil => simp [sitesOfElements]
  | cons element rest induction =>
      rw [sitesOfElements, List.mem_append, induction]
      constructor
      · rintro (here | ⟨position, other, found, inside⟩)
        · exact ⟨0, element, rfl, here⟩
        · exact ⟨position + 1, other, found, by rwa [← Nat.add_assoc, Nat.add_right_comm]⟩
      · rintro ⟨_ | position, other, found, inside⟩
        · cases found
          exact Or.inl inside
        · exact Or.inr ⟨position, other, found, by rwa [Nat.add_right_comm, Nat.add_assoc]⟩

/-- **The sites of a document** are those of the structs that stand inside it, at their places. -/
theorem mem_sites_iff {place : String} {document : SchemaDocument} {site : Site} :
    site ∈ sites place document ↔
      ∃ inner fields index, Leads place document inner (.struct fields index) ∧
        IsSiteOf inner fields site := by
  induction document using SchemaDocument.induction generalizing place with
  | leaf kind => exact ⟨nofun, fun ⟨_, _, _, leads, _⟩ => by cases leads⟩
  | timestampText => exact ⟨nofun, fun ⟨_, _, _, leads, _⟩ => by cases leads⟩
  | booleanText truthy falsy => exact ⟨nofun, fun ⟨_, _, _, leads, _⟩ => by cases leads⟩
  | struct fields index fieldsInduction indexInduction =>
      rw [sites, List.mem_append, mem_sitesOfFields_iff]
      constructor
      · -- a site of the struct itself, or one inside a field, or one inside the index signature
        rintro ((own | ⟨field, held, inside⟩) | inside)
        · exact ⟨place, fields, index, .here .., own⟩
        · obtain ⟨inner, others, otherIndex, leads, isSite⟩ :=
            (fieldsInduction field held).mp inside
          exact ⟨inner, others, otherIndex, .field held leads, isSite⟩
        · cases index with
          | none => cases inside
          | some entry =>
              obtain ⟨inner, others, otherIndex, leads, isSite⟩ :=
                (indexInduction entry rfl).mp inside
              exact ⟨inner, others, otherIndex, .index leads, isSite⟩
      · rintro ⟨inner, others, otherIndex, leads, isSite⟩
        cases leads with
        | here => exact Or.inl (Or.inl isSite)
        | field held leads =>
            exact Or.inl (Or.inr ⟨_, held,
              (fieldsInduction _ held).mpr ⟨inner, others, otherIndex, leads, isSite⟩⟩)
        | index leads =>
            exact Or.inr ((indexInduction _ rfl).mpr ⟨inner, others, otherIndex, leads, isSite⟩)
  | tuple elements rest isReadonly elementsInduction restInduction =>
      rw [sites, List.mem_append, mem_sitesOfElements_iff]
      simp only [Nat.zero_add]
      constructor
      · -- a tuple has no sites of its own
        rintro (⟨position, element, found, inside⟩ | inside)
        · obtain ⟨inner, others, index, leads, isSite⟩ :=
            (elementsInduction element (List.mem_of_getElem? found)).mp inside
          exact ⟨inner, others, index, .element found leads, isSite⟩
        · cases rest with
          | none => cases inside
          | some type =>
              obtain ⟨inner, others, index, leads, isSite⟩ := (restInduction type rfl).mp inside
              exact ⟨inner, others, index, .rest leads, isSite⟩
      · rintro ⟨inner, others, index, leads, isSite⟩
        cases leads with
        | element found leads =>
            exact Or.inl ⟨_, _, found, (elementsInduction _ (List.mem_of_getElem? found)).mpr
              ⟨inner, others, index, leads, isSite⟩⟩
        | rest leads =>
            exact Or.inr ((restInduction _ rfl).mpr ⟨inner, others, index, leads, isSite⟩)

/-- A struct repeats a name when one of its sites does. -/
theorem exists_isRepeated_iff {place : String} {fields : List (Field SchemaDocument)} :
    (∃ site, IsSiteOf place fields site ∧ site.IsRepeated) ↔
      ¬(fields.map Field.name).Nodup := by
  constructor
  · rintro ⟨_, ⟨front, field, behind, rfl, rfl⟩, repeated⟩ distinct
    rw [List.map_append, List.map_cons] at distinct
    exact (List.nodup_append.mp distinct).2.2 _ repeated _ List.mem_cons_self rfl
  · intro repeats
    induction fields using List.reverseRecOn with
    | nil => simp at repeats
    | append_singleton front field induction =>
        -- the last field repeats a name, or one before it does
        by_cases known : field.name ∈ front.map Field.name
        · exact ⟨_, ⟨front, field, [], rfl, rfl⟩, known⟩
        · have earlier : ¬(front.map Field.name).Nodup := by
            intro distinct
            refine repeats ?_
            rw [List.map_append, List.nodup_append]
            refine ⟨distinct, by simp, ?_⟩
            rintro name held _ last rfl
            rw [List.map_singleton, List.mem_singleton] at last
            exact known (last ▸ held)
          obtain ⟨site, ⟨others, other, behind, rfl, rfl⟩, repeated⟩ := induction earlier
          exact ⟨_, ⟨others, other, behind ++ [field], by simp, rfl⟩, repeated⟩

/-! ## (3) The first repetition -/

/-- The repetition at a site, if it repeats a name. -/
def Site.repetition? (site : Site) : Option RepeatedField :=
  if site.IsRepeated then some ⟨site.name, site.place⟩ else none

section Inside

variable {place : String} {fields : List (Field SchemaDocument)}
  {index : Option (IndexEntry SchemaDocument)} {elements : List (Element SchemaDocument)}
  {rest : Option SchemaDocument}

/-- The error of fields is that of the first site that repeats a name. -/
theorem error?_toSchemaFields {seen before : List String}
    (same : ∀ name, name ∈ seen ↔ name ∈ before)
    (each : ∀ field ∈ fields, ∀ place,
      error? (field.type.toSchemaAt place) = (sites place field.type).findSome? Site.repetition?) :
    error? (toSchemaFields place seen fields) =
      (sitesOfFields place before fields).findSome? Site.repetition? := by
  -- what has been seen are the names before, in another order
  induction fields generalizing seen before with
  | nil => rfl
  | cons field rest induction =>
      rw [List.forall_mem_cons] at each
      rw [toSchemaFields, sitesOfFields, List.findSome?_cons]
      by_cases known : field.name ∈ before
      · rw [if_pos (List.contains_iff_mem.mpr ((same field.name).mpr known))]
        have repeated : Site.IsRepeated ⟨place, before, field.name⟩ := known
        simp only [Site.repetition?, if_pos repeated]
        rfl
      · rw [if_neg fun held => known ((same field.name).mp (List.contains_iff_mem.mp held))]
        have fresh : ¬Site.IsRepeated ⟨place, before, field.name⟩ := known
        have sameBehind : ∀ name, name ∈ field.name :: seen ↔ name ∈ before ++ [field.name] := by
          intro name
          simp [same, or_comm]
        simp only [Site.repetition?, if_neg fresh]
        rw [List.findSome?_append, ← induction sameBehind each.2, ← each.1]
        exact error?_bind fun type => error?_bind_pure _ _

/-- The error of an index signature is that of the first site in its value. -/
theorem error?_toSchemaIndex
    (each : ∀ entry ∈ index, ∀ place,
      error? (entry.value.toSchemaAt place) =
        (sites place entry.value).findSome? Site.repetition?) :
    error? (toSchemaIndex place index) = (sitesOfIndex place index).findSome? Site.repetition? := by
  cases index with
  | none => rfl
  | some entry =>
      rw [toSchemaIndex, sitesOfIndex, ← each entry rfl]
      exact error?_bind_pure _ _

/-- The error of elements is that of the first site in their types. -/
theorem error?_toSchemaElements {start : Nat}
    (each : ∀ element ∈ elements, ∀ place,
      error? (element.type.toSchemaAt place) =
        (sites place element.type).findSome? Site.repetition?) :
    error? (toSchemaElements place start elements) =
      (sitesOfElements place start elements).findSome? Site.repetition? := by
  induction elements generalizing start with
  | nil => rfl
  | cons element rest induction =>
      rw [List.forall_mem_cons] at each
      rw [toSchemaElements, sitesOfElements, List.findSome?_append, ← each.1, ← induction each.2]
      exact error?_bind fun type => error?_bind_pure _ _

/-- The error of a rest is that of the first site in its type. -/
theorem error?_toSchemaRest
    (each : ∀ type ∈ rest, ∀ place,
      error? (type.toSchemaAt place) = (sites place type).findSome? Site.repetition?) :
    error? (toSchemaRest place rest) = (sitesOfRest place rest).findSome? Site.repetition? := by
  cases rest with
  | none => rfl
  | some type =>
      rw [toSchemaRest, sitesOfRest, ← each type rfl]
      exact error?_bind_pure _ _

end Inside

/-- **The repetition that is reported** is that of the first site which repeats a name. -/
theorem error?_toSchemaAt (document : SchemaDocument) (place : String) :
    error? (document.toSchemaAt place) = (sites place document).findSome? Site.repetition? := by
  induction document using SchemaDocument.induction generalizing place with
  | leaf kind => rfl
  | timestampText => rfl
  | booleanText truthy falsy => rfl
  | struct fields index fieldsInduction indexInduction =>
      have nothingSeen : ∀ name : String, name ∈ ([] : List String) ↔ name ∈ ([] : List String) :=
        fun _ => Iff.rfl
      rw [toSchemaAt, sites, List.findSome?_append,
        ← error?_toSchemaFields nothingSeen fieldsInduction, ← error?_toSchemaIndex indexInduction]
      exact error?_bind fun types => error?_bind_pure _ _
  | tuple elements rest isReadonly elementsInduction restInduction =>
      rw [toSchemaAt, sites, List.findSome?_append, ← error?_toSchemaElements elementsInduction,
        ← error?_toSchemaRest restInduction]
      exact error?_bind fun types => error?_bind_pure _ _

/-- A document at a place fails as the first site that repeats a name. -/
theorem toSchemaAt_eq_error_iff {document : SchemaDocument} {place : String}
    {repeated : RepeatedField} :
    document.toSchemaAt place = .error repeated ↔
      ∃ front site back, sites place document = front ++ site :: back ∧
        (∀ earlier ∈ front, ¬earlier.IsRepeated) ∧ site.IsRepeated ∧
        repeated = ⟨site.name, site.place⟩ := by
  rw [← error?_eq_some_iff, error?_toSchemaAt, List.findSome?_eq_some_iff]
  refine exists_congr fun front => exists_congr fun site => exists_congr fun back => ?_
  simp only [Site.repetition?, ite_eq_right_iff, reduceCtorEq, imp_false,
    Option.ite_none_right_eq_some, Option.some.injEq, eq_comm (b := repeated)]
  exact and_congr_right fun _ => and_comm

/-- A document at a place fails when a struct inside it repeats the name of a field. -/
theorem toSchemaAt_fails_iff {document : SchemaDocument} {place : String} :
    (∃ repeated, document.toSchemaAt place = .error repeated) ↔
      ∃ inner fields index, Leads place document inner (.struct fields index) ∧
        ¬(fields.map Field.name).Nodup := by
  have fails : (∃ repeated, document.toSchemaAt place = .error repeated) ↔
      ∃ site ∈ sites place document, site.IsRepeated := by
    simp only [← error?_eq_some_iff, ← Option.isSome_iff_exists, error?_toSchemaAt,
      List.findSome?_isSome_iff, Site.repetition?, Option.isSome_ite]
  rw [fails]
  constructor
  · rintro ⟨site, held, repeated⟩
    obtain ⟨inner, fields, index, leads, isSite⟩ := mem_sites_iff.mp held
    exact ⟨inner, fields, index, leads, exists_isRepeated_iff.mp ⟨site, isSite, repeated⟩⟩
  · rintro ⟨inner, fields, index, leads, repeats⟩
    obtain ⟨site, isSite, repeated⟩ := exists_isRepeated_iff.mpr repeats
    exact ⟨site, mem_sites_iff.mpr ⟨inner, fields, index, leads, isSite⟩, repeated⟩

/-! ## (4) Mirrors -/

/-- **A field mirrors** one of a document: its type mirrors, and all else that it says is the
same. -/
inductive FieldMirrors (mirrors : SchemaDocument → Schema → Prop) :
    Field SchemaDocument → Field Schema → Prop
  /-- The type is exchanged for one that mirrors. -/
  | of {type : SchemaDocument} {mirrored : Schema} (name : String) (isOptional isReadonly : Bool)
      (rename : Option String) (annotations : List (String × Json))
      (typeMirrors : mirrors type mirrored) :
      FieldMirrors mirrors ⟨name, type, isOptional, isReadonly, rename, annotations⟩
        ⟨name, mirrored, isOptional, isReadonly, rename, annotations⟩

/-- **An index signature mirrors** one of a document: its keys are texts unless another kind is
given. -/
inductive EntryMirrors (mirrors : SchemaDocument → Schema → Prop) :
    IndexEntry SchemaDocument → IndexSignature Schema → Prop
  /-- The type is exchanged for one that mirrors, and the kind of the keys is settled. -/
  | of {value : SchemaDocument} {mirrored : Schema} (key : Option LeafType) (isReadonly : Bool)
      (valueMirrors : mirrors value mirrored) :
      EntryMirrors mirrors ⟨key, value, isReadonly⟩ ⟨key.getD .string, mirrored, isReadonly⟩

/-- **An element mirrors** one of a document. -/
inductive ElementMirrors (mirrors : SchemaDocument → Schema → Prop) :
    Element SchemaDocument → Element Schema → Prop
  /-- The type is exchanged for one that mirrors. -/
  | of {type : SchemaDocument} {mirrored : Schema} (isOptional : Bool)
      (typeMirrors : mirrors type mirrored) :
      ElementMirrors mirrors ⟨type, isOptional⟩ ⟨mirrored, isOptional⟩

/-- **A schema mirrors a document**, node by node and in the same order. -/
inductive Mirrors : SchemaDocument → Schema → Prop
  /-- A leaf of the same kind. -/
  | leaf (kind : LeafType) : Mirrors (.leaf kind) (.leaf kind)
  /-- A struct with the same fields and index signature. -/
  | struct {fields : List (Field SchemaDocument)} {index : Option (IndexEntry SchemaDocument)}
      {mirroredFields : List (Field Schema)} {mirroredIndex : Option (IndexSignature Schema)}
      (fieldsMirror : List.Forall₂ (FieldMirrors Mirrors) fields mirroredFields)
      (indexMirrors : Option.Rel (EntryMirrors Mirrors) index mirroredIndex) :
      Mirrors (.struct fields index) (.struct mirroredFields mirroredIndex)
  /-- A tuple with the same elements, rest type and mark. -/
  | tuple {elements : List (Element SchemaDocument)} {rest : Option SchemaDocument}
      {mirroredElements : List (Element Schema)} {mirroredRest : Option Schema} (isReadonly : Bool)
      (elementsMirror : List.Forall₂ (ElementMirrors Mirrors) elements mirroredElements)
      (restMirrors : Option.Rel Mirrors rest mirroredRest) :
      Mirrors (.tuple elements rest isReadonly) (.tuple mirroredElements mirroredRest isReadonly)
  /-- Timestamps as texts. -/
  | timestampText : Mirrors .timestampText .timestampText
  /-- Truth values as the same texts. -/
  | booleanText (truthy falsy : String) :
      Mirrors (.booleanText truthy falsy) (.booleanText truthy falsy)

/-- **What a document describes** mirrors it. -/
theorem mirrors_of_describes {document : SchemaDocument} {schema : Schema}
    (describes : document.Describes schema) : Mirrors document schema := by
  induction document using SchemaDocument.induction generalizing schema with
  | leaf kind =>
      obtain ⟨_, ⟨⟩⟩ := describes
      exact .leaf kind
  | timestampText =>
      obtain ⟨_, ⟨⟩⟩ := describes
      exact .timestampText
  | booleanText truthy falsy =>
      obtain ⟨_, ⟨⟩⟩ := describes
      exact .booleanText truthy falsy
  | struct fields index fieldsInduction indexInduction =>
      obtain ⟨types, signature, rfl, _, ofFields, ofIndex⟩ := describes_struct describes
      refine .struct ?_ ?_
      · refine Items.forall₂_imp_of_mem ofFields fun entry held field _ described => ?_
        obtain ⟨type, origin, rfl⟩ := described
        exact .of _ _ _ _ _ (fieldsInduction entry held origin)
      · cases ofIndex with
        | none => exact .none
        | some described =>
            obtain ⟨type, origin, rfl⟩ := described
            exact .some (.of _ _ (indexInduction _ rfl origin))
  | tuple elements rest isReadonly elementsInduction restInduction =>
      obtain ⟨types, restType, rfl, ofElements, ofRest⟩ := describes_tuple describes
      refine .tuple isReadonly ?_ ?_
      · refine Items.forall₂_imp_of_mem ofElements fun entry held element _ described => ?_
        obtain ⟨type, origin, rfl⟩ := described
        exact .of _ (elementsInduction entry held origin)
      · cases ofRest with
        | none => exact .none
        | some described => exact .some (restInduction _ rfl described)

/-! ## (5) Schemas of documents -/

end WireSchema.SchemaDocument

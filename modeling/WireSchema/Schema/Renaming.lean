import WireSchema.Schema.Basic

/-! # Applying renames

A struct with renamed fields stands for objects whose keys differ on the two sides. Applying the
renames of a schema turns each such struct into a codec: its source lists the fields under their
encoded names with types left open, its target has the names and types of the struct, and its
conversion carries the keys across. Structs without renames stay structs, of codecs only the source
is looked into, and two fields of a renamed struct must not share an encoded name. -/

namespace WireSchema

/-! ## (1) Encoded names -/

/-- Two fields of a struct share an encoded name. -/
structure RenameConflict where
  /-- The shared name. -/
  encoded : String
  /-- The earlier field. -/
  first : String
  /-- The later field. -/
  second : String
  deriving DecidableEq

/-- The text of a conflict. -/
def RenameConflict.message (conflict : RenameConflict) : String :=
  s!"fields `{conflict.first}` and `{conflict.second}` both encode to `{conflict.encoded}`"

/-- **The renames of a struct**: encoded names by field name. -/
abbrev Renames : Type := List (String × String)

namespace Renames

/-- The rename that a field declares. -/
def ofField {τ : Type} (field : Field τ) : Option (String × String) :=
  field.rename.map fun encoded => (field.name, encoded)

/-- The renames that the fields of a struct declare; of two fields with one name the last rename
counts. -/
def ofFields {τ : Type} (fields : List (Field τ)) : Renames :=
  Members.ofList (fields.filterMap ofField)

/-- The encoded name of a field: its rename, or else its own name. -/
def encodedName (renames : Renames) (name : String) : String :=
  (Members.find? renames name).getD name

end Renames

/-- The first conflict among the encoded names of fields, given the fields that have claimed encoded
names before them. -/
def conflictAfter {τ : Type} (renames : Renames) :
    List (String × String) → List (Field τ) → Option RenameConflict
  | _, [] => none
  | claimed, field :: rest =>
      let encoded := renames.encodedName field.name
      match Members.find? claimed encoded with
      | some first => some ⟨encoded, first, field.name⟩
      | none => conflictAfter renames (Members.insert claimed encoded field.name) rest

/-- The first conflict among the encoded names of the fields of a struct. -/
def findConflict {τ : Type} (renames : Renames) (fields : List (Field τ)) :
    Option RenameConflict :=
  conflictAfter renames [] fields

/-- The key map between the two sides of a struct. -/
def KeyMap.ofStruct {τ : Type} (renames : Renames) (fields : List (Field τ)) (isOpen : Bool) :
    KeyMap :=
  ⟨fields.map fun field =>
    ⟨field.name, renames.encodedName field.name, field.isOptional⟩, isOpen⟩

namespace Schema

/-! ## (2) Codecs for renamed structs -/

/-- A field on the encoded side of a renamed struct. -/
def encodedField (renames : Renames) (field : Field Schema) : Field Schema :=
  { field with name := renames.encodedName field.name, type := .unknown, rename := none }

/-- The index signature on the encoded side of a renamed struct. -/
def encodedIndex (index : IndexSignature Schema) : IndexSignature Schema :=
  { index with value := .unknown }

/-- The codec that stands for a struct with the given renames, once its field types and its index
type have had their renames applied. -/
def renameCodec (renames : Renames) (fields : List (Field Schema))
    (index : Option (IndexSignature Schema)) : Schema :=
  .codec
    -- the values are carried by the types of the target; the source looks at keys only
    (.struct (fields.map (encodedField renames)) (index.map encodedIndex))
    (.struct (fields.map fun field => { field with rename := none }) index)
    (.keys (KeyMap.ofStruct renames fields index.isSome))

/-! ## (3) Whole schemas -/

mutual

/-- Apply the renames of a schema. -/
def applyRenames : Schema → Except RenameConflict Schema
  | .leaf kind => .ok (.leaf kind)
  | .struct fields index =>
      let renames := Renames.ofFields fields
      if renames.isEmpty then do
        let fields ← applyRenamesFields fields
        let index ← applyRenamesIndex index
        return .struct fields index
      else
        -- a conflict of this struct comes before those of the structs inside it
        match findConflict renames fields with
        | some conflict => .error conflict
        | none => do
            let fields ← applyRenamesFields fields
            let index ← applyRenamesIndex index
            return renameCodec renames fields index
  | .tuple elements rest isReadonly => do
      let elements ← applyRenamesElements elements
      let rest ← applyRenamesRest rest
      return .tuple elements rest isReadonly
  | .codec source target conversion => do
      -- the target is the decoded side, where fields bear their own names
      let source ← applyRenames source
      return .codec source target conversion

/-- Apply the renames inside the types of fields. -/
def applyRenamesFields : List (Field Schema) → Except RenameConflict (List (Field Schema))
  | [] => .ok []
  | field :: rest => do
      let type ← applyRenames field.type
      let fields ← applyRenamesFields rest
      return { field with type := type } :: fields

/-- Apply the renames inside the type of an index signature. -/
def applyRenamesIndex :
    Option (IndexSignature Schema) → Except RenameConflict (Option (IndexSignature Schema))
  | none => .ok none
  | some index => do
      let value ← applyRenames index.value
      return some { index with value := value }

/-- Apply the renames inside the types of elements. -/
def applyRenamesElements : List (Element Schema) → Except RenameConflict (List (Element Schema))
  | [] => .ok []
  | element :: rest => do
      let type ← applyRenames element.type
      let elements ← applyRenamesElements rest
      return { element with type := type } :: elements

/-- Apply the renames inside a rest type. -/
def applyRenamesRest : Option Schema → Except RenameConflict (Option Schema)
  | none => .ok none
  | some rest => do
      let rest ← applyRenames rest
      return some rest

end

/-- The codec that stands for a struct with the given renames, which need not be its own. -/
def renameStruct (renames : Renames) (fields : List (Field Schema))
    (index : Option (IndexSignature Schema)) : Except RenameConflict Schema :=
  match findConflict renames fields with
  | some conflict => .error conflict
  | none => do
      let fields ← applyRenamesFields fields
      let index ← applyRenamesIndex index
      return renameCodec renames fields index

end Schema

end WireSchema

import WireSchema.Schema.Basic

/-! # Views of schemas

A schema as a JSON document for people to read. Flags, renames, annotations, index signatures and
rest types are shown only where they are set; of a conversion only the name is shown. -/

namespace WireSchema.Schema

/-- The member `name`, shown only when the flag is set. -/
def flagMember (name : String) (isSet : Bool) : List (String × Json) :=
  if isSet then [(name, .bool true)] else []

/-- The member that shows a rename. -/
def renameMember : Option String → List (String × Json)
  | none => []
  | some name => [("rename", .string name)]

/-- The member that shows annotations. -/
def annotationsMember (annotations : List (String × Json)) : List (String × Json) :=
  if annotations.isEmpty then [] else [("annotations", .object annotations)]

mutual

/-- The view of a schema. -/
def view : Schema → Json
  | .leaf kind => .object [("leaf", .string kind.name)]
  | .struct fields index =>
      .object (("struct", .array (viewFields fields)) :: viewIndex index)
  | .tuple elements rest isReadonly =>
      .object [("tuple", .object (("elements", .array (viewElements elements)) ::
        viewRest rest ++ flagMember "readonly" isReadonly))]
  | .codec source target conversion =>
      .object [("codec", .object [("conversion", .string conversion.name),
        ("source", view source), ("target", view target)])]

/-- The views of the fields of a struct. -/
def viewFields : List (Field Schema) → List Json
  | [] => []
  | field :: rest =>
      .object ([("name", .string field.name), ("type", view field.type)] ++
        flagMember "optional" field.isOptional ++ flagMember "readonly" field.isReadonly ++
        renameMember field.rename ++ annotationsMember field.annotations) :: viewFields rest

/-- The member that shows an index signature. -/
def viewIndex : Option (IndexSignature Schema) → List (String × Json)
  | none => []
  | some index =>
      [("index", .object ([("key", .string index.key.name), ("type", view index.value)] ++
        flagMember "readonly" index.isReadonly))]

/-- The views of the elements of a tuple. -/
def viewElements : List (Element Schema) → List Json
  | [] => []
  | element :: rest =>
      .object [("type", view element.type), ("optional", .bool element.isOptional)] ::
        viewElements rest

/-- The member that shows a rest type. -/
def viewRest : Option Schema → List (String × Json)
  | none => []
  | some rest => [("rest", view rest)]

end

end WireSchema.Schema

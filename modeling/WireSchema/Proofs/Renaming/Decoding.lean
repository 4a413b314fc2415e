import WireSchema.Proofs.Renaming.Codec
import WireSchema.Proofs.Renaming.Reshaping
import WireSchema.Proofs.Value.DistinctKeys

/-! # Decoding with renames applied

Decoding a value with the renames of a schema applied gives what the schema gives for the value
under the names of the fields. A key map may also fail for an undeclared key that takes the place of
a field, and it misses a field before it looks at any value, so that the two agree in their outcomes
and not in their errors. -/

namespace WireSchema.Schema

open Members

/-! ## (1) Decoded keys -/

/-- The name under which a struct keeps an encoded key: that of the field with this encoded name;
other keys are kept as they are by open structs, if they are not the name of a field. -/
def decodedName? (fields : List (Field Schema)) (isOpen : Bool) (key : String) : Option String :=
  match fieldOn? .encoded fields key with
  | some field => some field.name
  | none => if isOpen = true ∧ key ∉ fields.map Field.name then some key else none

/-- The reshaping that gives each declared member the name of its field. -/
def decodedKeys : Reshaping where
  side := .encoded
  name? := decodedName?
  convert? _ := none

/-- A value with encoded names under the names of the fields: the declared members of objects get
the names of their fields; of the others, those are kept that belong to an index type and do not
take the place of a field. -/
def withDecodedKeys (schema : Schema) (value : Value) : Value := schema.reshape decodedKeys value

/-- What becomes of the members of a struct inside. -/
def memberWithDecodedKeys (fields : List (Field Schema)) (index : Option (IndexSignature Schema))
    (key : String) : Value → Value :=
  (memberType .encoded fields index key).withDecodedKeys

/-- The keys of an object are decoded by the names of the struct, and its entries by their types. -/
theorem withDecodedKeys_struct (fields : List (Field Schema))
    (index : Option (IndexSignature Schema)) (members : List (String × Value)) :
    (Schema.struct fields index).withDecodedKeys (.object members) =
      .object (rekey (decodedName? fields index.isSome) (memberWithDecodedKeys fields index)
        members) :=
  reshape_struct decodedKeys fields index members

/-- The items of an array are decoded by the types at their positions. -/
theorem withDecodedKeys_tuple (elements : List (Element Schema)) (rest : Option Schema)
    (isReadonly : Bool) (items : List Value) :
    (Schema.tuple elements rest isReadonly).withDecodedKeys (.array items) =
      .array (items.mapIdx fun position => (slotType elements rest position).withDecodedKeys) :=
  reshape_tuple decodedKeys elements rest isReadonly items

/-- The keys that a codec decodes are those of its source. -/
theorem withDecodedKeys_codec (source target : Schema) (conversion : Conversion) :
    (Schema.codec source target conversion).withDecodedKeys = source.withDecodedKeys := by
  funext value
  exact reshape_codec decodedKeys source target conversion value

/-- A leaf has no keys to decode. -/
@[simp] theorem withDecodedKeys_leaf (kind : LeafType) (value : Value) :
    (Schema.leaf kind).withDecodedKeys value = value :=
  reshape_leaf decodedKeys kind value

section Struct

variable {fields : List (Field Schema)} {index : Option (IndexSignature Schema)}
  {members : List (String × Value)}

/-- The name of a field is given to its encoded name only. -/
theorem decodedName?_eq_some_iff (names : (fields.map Field.name).Nodup)
    (encodedNames : (namesOn .encoded fields).Nodup) {field : Field Schema} (held : field ∈ fields)
    (isOpen : Bool) (key : String) :
    decodedName? fields isOpen key = some field.name ↔
      key = (Renames.ofFields fields).encodedName field.name := by
  constructor
  · intro named
    rw [decodedName?] at named
    cases found : fieldOn? .encoded fields key with
    | some other =>
        rw [found] at named
        have same : other = field :=
          List.inj_on_of_nodup_map names (mem_of_fieldOn? found) held (Option.some.inj named)
        rw [← same]
        exact (nameOn_of_fieldOn? found).symm
    | none =>
        -- a key that is kept as it is is the name of no field
        simp only [found, Option.ite_none_right_eq_some, Option.some.injEq] at named
        obtain ⟨⟨_, free⟩, rfl⟩ := named
        exact absurd (List.mem_map_of_mem held) free
  · rintro rfl
    have found : fieldOn? .encoded fields ((Renames.ofFields fields).encodedName field.name) =
        some field := fieldOn?_of_mem encodedNames held
    rw [decodedName?, found]

/-- Under the name of a field stands what stood under its encoded name. -/
theorem find?_withDecodedKeys (names : (fields.map Field.name).Nodup)
    (encodedNames : (namesOn .encoded fields).Nodup) {field : Field Schema} (held : field ∈ fields)
    (isOpen : Bool) :
    find? (rekey (decodedName? fields isOpen) (memberWithDecodedKeys fields index) members)
        field.name =
      (find? members ((Renames.ofFields fields).encodedName field.name)).map
        field.type.withDecodedKeys := by
  have type : memberType .encoded fields index ((Renames.ofFields fields).encodedName field.name) =
      field.type := memberType_of_mem encodedNames held
  rw [find?_rekey (decodedName?_eq_some_iff names encodedNames held isOpen), memberWithDecodedKeys,
    type]

/-- The declared members under the names of the fields are those under the encoded names. -/
theorem declared?_withDecodedKeys (names : (fields.map Field.name).Nodup)
    (encodedNames : (namesOn .encoded fields).Nodup) (isOpen : Bool)
    (part : Field Schema → Value → Option Value) :
    declared? (rekey (decodedName? fields isOpen) (memberWithDecodedKeys fields index) members)
        (fields.map (fieldRule id id part)) =
      declared? members (fields.map (fieldRule (Renames.ofFields fields).encodedName id
        fun field value => part field (field.type.withDecodedKeys value))) := by
  refine declared?_andThen (fieldRule (Renames.ofFields fields).encodedName id
    fun field value => some (field.type.withDecodedKeys value)) (fieldRule id id part) ?_ ?_ ?_
  · exact fun _ _ => rfl
  · intro field held
    refine (find?_withDecodedKeys names encodedNames held isOpen).trans ?_
    exact Option.map_eq_bind
  · exact fun _ _ _ _ => rfl

/-- The undeclared members under the names of the fields are those under the encoded names, where no
key of them is the name of a field. -/
theorem undeclared?_withDecodedKeys (signature : IndexSignature Schema)
    (part bothParts : Field Schema → Value → Option Value) (openPart : Value → Option Value)
    (apart : ∀ key ∈ keys members, key ∉ namesOn .encoded fields → key ∉ fields.map Field.name) :
    undeclared? (fields.map (fieldRule id id part)) openPart
        (rekey (decodedName? fields true) (memberWithDecodedKeys fields (some signature)) members) =
      undeclared? (fields.map (fieldRule (Renames.ofFields fields).encodedName id bothParts))
        (fun value => openPart (signature.value.withDecodedKeys value)) members := by
  induction members with
  | nil => rfl
  | cons member rest induction =>
      obtain ⟨key, value⟩ := member
      rw [keys_cons, List.forall_mem_cons] at apart
      rw [undeclared?, readNames_fieldRule, writeNames_fieldRule]
      cases found : fieldOn? .encoded fields key with
      | some field =>
          -- a declared member is passed over under either name
          have kept : decodedName? fields true key = some field.name := by
            rw [decodedName?, found]
          have declared : key ∈ fields.map fun field =>
              (Renames.ofFields fields).encodedName field.name := by
            rw [← nameOn_of_fieldOn? found]
            exact List.mem_map_of_mem (mem_of_fieldOn? found)
          have read : field.name ∈ fields.map fun field => id field.name :=
            List.mem_map_of_mem (mem_of_fieldOn? found)
          rw [rekey_cons_of_kept kept, undeclared?, readNames_fieldRule, if_pos read,
            if_pos declared]
          exact induction apart.2
      | none =>
          -- any other key keeps its name, which is no name of a field on either side
          have undeclared : key ∉ fields.map fun field =>
              (Renames.ofFields fields).encodedName field.name := fieldOn?_eq_none_iff.mp found
          have free : key ∉ fields.map fun field => id field.name := apart.1 undeclared
          have kept : decodedName? fields true key = some key := by
            rw [decodedName?, found]
            exact if_pos ⟨rfl, free⟩
          have type : memberType .encoded fields (some signature) key = signature.value :=
            memberType_of_notMem (fieldOn?_eq_none_iff.mp found) signature
          rw [rekey_cons_of_kept kept, undeclared?, readNames_fieldRule, writeNames_fieldRule,
            if_neg free, if_neg free, if_neg undeclared, if_neg free, induction apart.2,
            memberWithDecodedKeys, type]

/-- **The outcome under the names of the fields** is the translation from the encoded names to the
names of the fields. -/
theorem structOutcome?_withDecodedKeys (names : (fields.map Field.name).Nodup)
    (encodedNames : (namesOn .encoded fields).Nodup)
    (apart : index.isSome →
      ∀ key ∈ keys members, key ∉ namesOn .encoded fields → key ∉ fields.map Field.name) :
    (Schema.struct fields index).outcome? .decode
        ((Schema.struct fields index).withDecodedKeys (.object members)) =
      (translate? (fields.map (fieldRule (Renames.ofFields fields).encodedName id
          fun field value => field.type.outcome? .decode (field.type.withDecodedKeys value)))
        (index.map fun signature value =>
          signature.value.outcome? .decode (signature.value.withDecodedKeys value)) members).map
        fun outputs => .object (ofList outputs) := by
  rw [withDecodedKeys_struct, outcome?_struct, structOutcome?, translate?, translate?,
    declared?_withDecodedKeys names encodedNames]
  cases index with
  | none => rfl
  | some signature =>
      have others := undeclared?_withDecodedKeys signature
        (fun field => field.type.outcome? .decode)
        (fun field value => field.type.outcome? .decode (field.type.withDecodedKeys value))
        (signature.value.outcome? .decode) (apart rfl)
      simp only [Option.map_some, Option.isSome_some, others?, others]

end Struct

/-! ## (2) Agreement with the schema -/

/-- An error that reports a key collision. -/
def IsKeyCollision (error : TranscodingError) : Prop := ∃ key, error.cause = .keyCollision key

/-- A key collision stays one under a longer path. -/
theorem isKeyCollision_anchored {path : String} (error : TranscodingError)
    (collides : IsKeyCollision error) : IsKeyCollision (error.anchored path) := collides

/-- **A schema decodes alike** with its renames applied: what becomes of a value is what becomes of
it under the names of the fields without them, but for key collisions. -/
def DecodesAlike (schema : Schema) : Prop :=
  ∀ value, value.HasDistinctKeys → ∀ path inputName,
    AgreesUnless IsKeyCollision (transcodeAt .decode path inputName schema.renamed value)
      (schema.outcome? .decode (schema.withDecodedKeys value))

section Agrees

variable {fields : List (Field Schema)} {index : Option (IndexSignature Schema)}
  {members : List (String × Value)}

/-- The members that the key map of a struct carries over hold values of the object. -/
theorem hasDistinctKeys_of_carried {outputs : List (String × Value)} {read write : String → String}
    (distinct : (Value.object members).HasDistinctKeys)
    (translated : translate? (fields.map (fieldRule read write fun _ => some))
      (index.map fun _ => some) members = some outputs) :
    ∀ output ∈ outputs, output.2.HasDistinctKeys := by
  intro output held
  rcases mem_translate? translated held with
    ⟨rule, ruleHeld, value, found, same, _⟩ | ⟨part, isOpen, value, memberHeld, _, same⟩
  · obtain ⟨field, _, rfl⟩ := List.mem_map.mp ruleHeld
    cases same
    exact distinct.of_find? found
  · obtain ⟨_, _, rfl⟩ := Option.map_eq_some_iff.mp isOpen
    cases same
    exact ((Value.hasDistinctKeys_object members).mp distinct).2 _ memberHeld

/-- A leaf decodes alike. -/
theorem decodesAlike_leaf (kind : LeafType) : (Schema.leaf kind).DecodesAlike := by
  intro value _ path inputName
  rw [renamed_leaf, transcodeAt, withDecodedKeys_leaf, outcome?_leaf]
  exact .ok value

/-- Without renames, a struct agrees with the schema when the types inside it decode alike. -/
theorem agreesUnless_plainStruct (plain : (Renames.ofFields fields).isEmpty = true)
    (names : (fields.map Field.name).Nodup) (distinct : (Value.object members).HasDistinctKeys)
    (declaredAlike : ∀ field ∈ fields, field.type.DecodesAlike)
    (othersAlike : ∀ signature ∈ index, signature.value.DecodesAlike)
    (path : String) (inputName : String → String) :
    AgreesUnless IsKeyCollision
      (transcodeAt .decode path inputName
        (.struct (fields.map renamedField) (index.map renamedIndex)) (.object members))
      ((Schema.struct fields index).outcome? .decode
        ((Schema.struct fields index).withDecodedKeys (.object members))) := by
  have same : (Renames.ofFields fields).encodedName = id :=
    funext (Renames.encodedName_of_isEmpty plain)
  have encodedNames : namesOn .encoded fields = fields.map Field.name :=
    List.map_congr_left fun field _ => Renames.encodedName_of_isEmpty plain field.name
  rw [structOutcome?_withDecodedKeys names (by rw [encodedNames]; exact names), same]
  · refine agreesUnless_struct ?_ ?_ ?_ ?_
    · exact fun _ => rfl
    · exact fun _ => rfl
    · intro field held value found path
      exact declaredAlike field held value (distinct.of_find? found) path id
    · intro signature held member memberHeld path
      exact othersAlike signature held member.2
        (((Value.hasDistinctKeys_object members).mp distinct).2 member memberHeld) path id
  · intro _ key _ undeclared
    rw [encodedNames] at undeclared
    exact undeclared

/-- Where a required field is missing under its encoded name, the schema misses it, too. -/
theorem structOutcome?_of_missing (names : (fields.map Field.name).Nodup)
    (encodedNames : (namesOn .encoded fields).Nodup) {field : Field Schema} (held : field ∈ fields)
    (required : field.isOptional = false)
    (missing : find? members ((Renames.ofFields fields).encodedName field.name) = none) :
    (Schema.struct fields index).outcome? .decode
      ((Schema.struct fields index).withDecodedKeys (.object members)) = none := by
  rw [withDecodedKeys_struct, outcome?_struct, structOutcome?, translate?,
    declared?_withDecodedKeys names encodedNames]
  cases declared : declared? members (fields.map (fieldRule (Renames.ofFields fields).encodedName id
      fun field value => field.type.outcome? .decode (field.type.withDecodedKeys value))) with
  | none => rfl
  | some outputs =>
      have admits := (declared?_isSome_iff _ _).mp (by rw [declared]; rfl)
        _ (List.mem_map_of_mem held)
      rw [Rule.Admits, read_fieldRule, missing] at admits
      exact absurd (required.symm.trans admits) Bool.false_ne_true

/-- With renames, carrying the object over and walking the target agrees with the schema when the
types inside decode alike. -/
theorem agreesUnless_renameCodec (names : (fields.map Field.name).Nodup)
    (encodedNames : (namesOn .encoded fields).Nodup)
    (distinct : (Value.object members).HasDistinctKeys)
    (declaredAlike : ∀ field ∈ fields, field.type.DecodesAlike)
    (othersAlike : ∀ signature ∈ index, signature.value.DecodesAlike)
    (path : String) (inputName : String → String) :
    AgreesUnless IsKeyCollision
      (transcodeAt .decode path inputName
        (renameCodec (Renames.ofFields fields) (fields.map renamedField) (index.map renamedIndex))
        (.object members))
      ((Schema.struct fields index).outcome? .decode
        ((Schema.struct fields index).withDecodedKeys (.object members))) := by
  have unique := distinct.nodup_keys
  have retypedNames : ((fields.map renamedField).map fun field =>
      (Renames.ofFields fields).encodedName field.name).Nodup := by
    rw [List.map_map]
    exact encodedNames
  rw [decode_renameCodec retypedNames (by rintro _ ⟨⟩; exact unique),
    KeyMap.ofStruct_renamedField, Option.isSome_map]
  rcases carry_ofStruct (Renames.ofFields fields) fields index .encoded members with
    ⟨pair, missing, carries⟩ | ⟨_, key, carries⟩ | ⟨outputs, translated, carries⟩
  · obtain ⟨field, held, _, required, absent⟩ := exists_field_of_missing? missing
    rw [carries, structOutcome?_of_missing names encodedNames held required absent]
    exact .error _
  · rw [carries]
    exact Or.inl ⟨_, rfl, key, rfl⟩
  · -- carrying over and walking the target is one translation, by the parts of the target
    have written : (writeNames (fields.map (fieldRule
        ((Renames.ofFields fields).nameOn .encoded) ((Renames.ofFields fields).nameOn .decoded)
        fun _ => some))).Nodup := by
      rw [writeNames_fieldRule]
      exact names
    have apart : index.isSome →
        ∀ key ∈ keys members, key ∉ namesOn .encoded fields → key ∉ fields.map Field.name := by
      intro isOpen key keyHeld undeclared
      obtain ⟨signature, rfl⟩ := Option.isSome_iff_exists.mp isOpen
      obtain ⟨member, memberHeld, rfl⟩ := List.mem_map.mp keyHeld
      have others := undeclared_of_translate? translated rfl memberHeld
      rw [readNames_fieldRule, writeNames_fieldRule] at others
      exact (others undeclared).1
    rw [carries, ofList_of_nodup (nodup_keys_translate? written unique translated),
      structOutcome?_withDecodedKeys names encodedNames apart]
    show AgreesUnless _ (transcodeAt .decode path _ (decodedStruct _ _) (.object outputs)) _
    have values := hasDistinctKeys_of_carried distinct translated
    have both := translate?_fieldRule id
      (fun field value => field.type.outcome? .decode (field.type.withDecodedKeys value))
      (fun signature value =>
        signature.value.outcome? .decode (signature.value.withDecodedKeys value))
      names translated
    rw [some_thenPart, some_thenPart] at both
    refine Eq.subst (motive := AgreesUnless _ _) (congrArg (Option.map _) both) ?_
    rw [decodedStruct, List.map_map]
    refine agreesUnless_struct ?_ ?_ ?_ ?_
    · exact fun _ => rfl
    · exact fun _ => rfl
    · intro field held value found path
      exact declaredAlike field held value (values (field.name, value) (mem_of_find? found)) path id
    · intro signature held member memberHeld path
      exact othersAlike signature held member.2 (values member memberHeld) path id

/-- A struct whose types decode alike agrees with the schema, with renames and without. -/
theorem agreesUnless_renamedStruct (names : (fields.map Field.name).Nodup)
    (encodedNames : (namesOn .encoded fields).Nodup)
    (declaredAlike : ∀ field ∈ fields, field.type.DecodesAlike)
    (othersAlike : ∀ signature ∈ index, signature.value.DecodesAlike) {value : Value}
    (distinct : value.HasDistinctKeys) (path : String) (inputName : String → String) :
    AgreesUnless IsKeyCollision
      (transcodeAt .decode path inputName (renamedStruct fields index) value)
      ((Schema.struct fields index).outcome? .decode
        ((Schema.struct fields index).withDecodedKeys value)) := by
  cases value with
  | object members =>
      rw [renamedStruct]
      cases plain : (Renames.ofFields fields).isEmpty with
      | true =>
          exact agreesUnless_plainStruct plain names distinct declaredAlike othersAlike path
            inputName
      | false =>
          exact agreesUnless_renameCodec names encodedNames distinct declaredAlike othersAlike path
            inputName
  | _ =>
      rw [withDecodedKeys, reshape_struct_of_not_object _ _ _ rfl,
        outcome?_struct_of_not_object _ _ _ rfl,
        transcodeAt_renamedStruct_of_not_object _ _ _ _ _ rfl]
      exact .error _

/-- A tuple agrees with the schema when its slots decode alike. -/
theorem agreesUnless_renamedTuple {elements : List (Element Schema)} {rest : Option Schema}
    (isReadonly : Bool) (slots : ∀ position, (slotType elements rest position).DecodesAlike)
    {value : Value} (distinct : value.HasDistinctKeys) (path : String)
    (inputName : String → String) :
    AgreesUnless IsKeyCollision
      (transcodeAt .decode path inputName
        (.tuple (elements.map renamedElement) (rest.map renamed) isReadonly) value)
      ((Schema.tuple elements rest isReadonly).outcome? .decode
        ((Schema.tuple elements rest isReadonly).withDecodedKeys value)) := by
  cases value with
  | array items =>
      rw [transcodeAt_tuple, withDecodedKeys_tuple, outcome?_tuple, tupleOutcome?,
        admitsArity_renamed, List.length_mapIdx, Items.translate?_mapIdx,
        funext (slotType_renamed elements rest)]
      split
      · refine AgreesUnless.map Value.array (agreesUnless_itemOutputs ?_)
        intro position item found path
        exact slots position item (distinct.of_getElem? found) path id
      · exact .error _
  | _ =>
      rw [transcodeAt_tuple_of_not_array _ _ _ _ _ _ rfl, withDecodedKeys,
        reshape_tuple_of_not_array _ _ _ _ rfl, outcome?_tuple_of_not_array _ _ _ _ rfl]
      exact .error _

/-- A codec agrees with the schema when its source decodes alike: the target is not looked into. -/
theorem agreesUnless_renamedCodec {source : Schema} (target : Schema) (conversion : Conversion)
    (sourceAlike : source.DecodesAlike) {value : Value} (distinct : value.HasDistinctKeys)
    (path : String) (inputName : String → String) :
    AgreesUnless IsKeyCollision
      (transcodeAt .decode path inputName (.codec source.renamed target conversion) value)
      ((Schema.codec source target conversion).outcome? .decode
        ((Schema.codec source target conversion).withDecodedKeys value)) := by
  rw [transcodeAt_codec, withDecodedKeys_codec, outcome?_codec, codecOutcome?]
  simp only [nearSide, farSide]
  refine (sourceAlike value distinct path id).bind fun near _ => ?_
  refine ((AgreesUnless.refl _).mapError_anchored path isKeyCollision_anchored).bind
    fun carried _ => ?_
  exact .of_toOption_eq (toOption_transcodeAt .decode path _ target carried)

end Agrees

/-- **Decoding with renames applied agrees with the schema** on the value under the names of the
fields, but for key collisions. -/
theorem decodesAlike_of_applyRenames {schema applied : Schema}
    (applies : schema.applyRenames = .ok applied) (distinct : schema.HasDistinctNames) :
    schema.DecodesAlike := by
  induction schema using Schema.induction generalizing applied with
  | leaf kind => exact decodesAlike_leaf kind
  | struct fields index fieldsInduction indexInduction =>
      obtain ⟨eachField, eachIndex, _, shape⟩ := applyRenames_struct_eq_ok applies
      -- distinct names give distinct encoded names, where the renames apply
      have names : (fields.map Field.name).Nodup := distinct _ _ (mem_parts_self _)
      have declaredAlike : ∀ field ∈ fields, field.type.DecodesAlike := by
        intro field held
        exact fieldsInduction field held (eachField field held)
          (distinct.mono fun _ => mem_parts_of_field held)
      have othersAlike : ∀ signature ∈ index, signature.value.DecodesAlike := by
        intro signature held
        exact indexInduction signature held (eachIndex signature held)
          (distinct.mono fun _ => mem_parts_of_index held)
      intro value unique path inputName
      rw [renamed_of_applyRenames applies, shape]
      exact agreesUnless_renamedStruct names (nodup_namesOn names applies .encoded) declaredAlike
        othersAlike unique path inputName
  | tuple elements rest isReadonly elementsInduction restInduction =>
      obtain ⟨eachElement, eachRest, shape⟩ := applyRenames_tuple_eq_ok applies
      have slots : ∀ position, (slotType elements rest position).DecodesAlike := by
        refine slotType_induction ?_ ?_ (decodesAlike_leaf .unknown)
        · intro element held
          exact elementsInduction element held (eachElement element held)
            (distinct.mono fun _ => mem_parts_of_element held)
        · intro type held
          exact restInduction type held (eachRest type held)
            (distinct.mono fun _ => mem_parts_of_rest held)
      intro value unique path inputName
      rw [renamed_of_applyRenames applies, shape]
      exact agreesUnless_renamedTuple isReadonly slots unique path inputName
  | codec source target conversion sourceInduction targetInduction =>
      obtain ⟨appliesSource, shape⟩ := applyRenames_codec_eq_ok applies
      have sourceAlike : source.DecodesAlike :=
        sourceInduction appliesSource (distinct.mono fun _ => mem_parts_of_source)
      intro value unique path inputName
      rw [renamed_of_applyRenames applies, shape]
      exact agreesUnless_renamedCodec target conversion sourceAlike unique path inputName

/-! ## (3) Whole runs -/

/-- **Decoding with renames applied** gives exactly what decoding gives for the value under the
names of the fields, members in the same order, unless it fails with a key collision. -/
theorem decode_applyRenames {schema applied : Schema} (applies : schema.applyRenames = .ok applied)
    (distinct : schema.HasDistinctNames) {value : Value} (unique : value.HasDistinctKeys) :
    (∃ path key, applied.decode value = .error ⟨path, .keyCollision key⟩) ∨
      ∀ output, applied.decode value = .ok output ↔
        schema.decode (schema.withDecodedKeys value) = .ok output := by
  have agrees := decodesAlike_of_applyRenames applies distinct value unique "" id
  rw [renamed_of_applyRenames applies] at agrees
  rcases agrees with ⟨error, fails, key, same⟩ | same
  · obtain ⟨path, cause⟩ := error
    cases same
    exact Or.inl ⟨path, key, fails⟩
  · apply Or.inr
    intro output
    have outcomes : (applied.decode value).toOption =
        (schema.decode (schema.withDecodedKeys value)).toOption := same
    rw [← toOption_eq_some_iff, ← toOption_eq_some_iff, outcomes]

/-- An order with a renamed field and a note besides it is decoded with its renames applied: the
field comes out under its own name. -/
theorem decode_applyRenames_order :
    let order : Schema := .struct
      [⟨"id", .leaf .string, false, false, some "order_id", []⟩,
        ⟨"placed", timestampText, true, false, none, []⟩] (some ⟨.string, .leaf .number, false⟩)
    let value : Value := .object [("note", .null), ("order_id", .string "7")]
    order.applyRenames = .ok order.renamed ∧ order.HasDistinctNames ∧ value.HasDistinctKeys ∧
      ((∃ path key, order.renamed.decode value = .error ⟨path, .keyCollision key⟩) ∨
        ∀ output, order.renamed.decode value = .ok output ↔
          order.decode (order.withDecodedKeys value) = .ok output) ∧
      order.renamed.decode value = .ok (.object [("id", .string "7"), ("note", .null)]) := by
  intro order value
  have applies : order.applyRenames = .ok order.renamed := rfl
  have distinct : order.HasDistinctNames := by decide
  have unique : value.HasDistinctKeys := by
    rw [Value.hasDistinctKeys_object]
    exact ⟨by decide, by simp [Value.HasDistinctKeys]⟩
  exact ⟨applies, distinct, unique, decode_applyRenames applies distinct unique, rfl⟩

end WireSchema.Schema

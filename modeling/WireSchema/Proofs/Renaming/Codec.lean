import WireSchema.Proofs.Renaming.Applied
import WireSchema.Proofs.Renaming.KeyMap
import WireSchema.Proofs.Transcoding.Outcome

/-! # Rename codecs

The codec that stands for a renamed struct walks an object three times: through its source, through
its key map and through its target. The source checks nothing that the key map does not check in the
same order, so that decoding is carrying the object over and walking the target
(`decode_renameCodec`); and what the key map makes of a walked object goes through the source
unchanged, so that encoding is walking the target and carrying the outcome over
(`encode_renameCodec`). -/

namespace WireSchema.Schema

open Members

/-! ## (1) Rules of structs -/

/-- What becomes of values in two steps. -/
def thenPart {ι : Type} (early late : ι → Value → Option Value) (item : ι) (value : Value) :
    Option Value :=
  (early item value).bind (late item)

/-- A second step that keeps values changes nothing. -/
theorem thenPart_some {ι : Type} (part : ι → Value → Option Value) :
    thenPart part (fun _ => some) = part := by
  funext item value
  simp [thenPart]

/-- A first step that keeps values changes nothing. -/
theorem some_thenPart {ι : Type} (part : ι → Value → Option Value) :
    thenPart (fun _ => some) part = part := by
  funext item value
  simp [thenPart]

/-- Two open parts over one index signature are one part in two steps. -/
theorem openThen_map {ι : Type} (index : Option ι) (early late : ι → Value → Option Value) :
    openThen (index.map early) (index.map late) = index.map (thenPart early late) := by
  cases index <;> rfl

/-- Keeping the undeclared members of an open struct is the open part that changes nothing. -/
theorem keepingOthers_isSome {ι : Type} (index : Option ι) :
    keepingOthers index.isSome = index.map fun _ => (some : Value → Option Value) := by
  cases index <;> rfl

section Rules

variable {fields : List (Field Schema)} {index : Option (IndexSignature Schema)}
  {read middle write : String → String} {early late : Field Schema → Value → Option Value}
  {openEarly openLate : IndexSignature Schema → Value → Option Value}
  {members outputs : List (String × Value)}

variable (write late openLate) in
/-- Two translations of the fields of a struct, one after the other, are one. -/
theorem translate?_fieldRule (distinct : (fields.map fun field => middle field.name).Nodup)
    (translated : translate? (fields.map (fieldRule read middle early)) (index.map openEarly)
      members = some outputs) :
    translate? (fields.map (fieldRule middle write late)) (index.map openLate) outputs =
      translate? (fields.map (fieldRule read write (thenPart early late)))
        (index.map (thenPart openEarly openLate)) members := by
  rw [← openThen_map]
  refine translate?_translate? (fieldRule read middle early) (fieldRule middle write late) ?_
    (fun _ _ => rfl) (fun _ _ => rfl) translated
  rw [writeNames_fieldRule]
  exact distinct

/-- Members that translate into other names translate under their own names. -/
theorem translate?_isSome_of_write
    (translates : (translate? (fields.map (fieldRule read write early)) (index.map openEarly)
      members).isSome) :
    (translate? (fields.map (fieldRule read read early)) (index.map openEarly) members).isSome := by
  rw [translate?_isSome_iff, readNames_fieldRule, List.forall_mem_map] at translates ⊢
  refine ⟨translates.1, fun part held member memberHeld unread => ⟨?_, ?_⟩⟩
  · rw [writeNames_fieldRule]
    exact unread
  · exact (translates.2 part held member memberHeld unread).2

/-- Members that translate by two parts translate by the first one. -/
theorem translate?_isSome_of_thenPart
    (translates : (translate? (fields.map (fieldRule read write (thenPart early late)))
      (index.map (thenPart openEarly openLate)) members).isSome) :
    (translate? (fields.map (fieldRule read write early)) (index.map openEarly)
      members).isSome := by
  rw [translate?_isSome_iff, readNames_fieldRule, writeNames_fieldRule, List.forall_mem_map]
    at translates ⊢
  refine ⟨fun field held => ?_, fun part kept member memberHeld unread => ?_⟩
  · have admits := translates.1 field held
    rw [Rule.Admits] at admits ⊢
    simp only [read_fieldRule, part_fieldRule] at admits ⊢
    cases found : find? members (read field.name) with
    | some value =>
        rw [found] at admits
        exact Option.isSome_of_isSome_bind admits
    | none =>
        rw [found] at admits
        exact admits
  · cases index with
    | none => cases kept
    | some signature =>
        cases kept
        have becomes := translates.2 _ rfl member memberHeld unread
        exact ⟨becomes.1, Option.isSome_of_isSome_bind becomes.2⟩

end Rules

/-! ## (2) The key map of a struct -/

variable {renames : Renames} {fields : List (Field Schema)}
  {index : Option (IndexSignature Schema)}

/-- The key map of a struct does not depend on the types inside it. -/
theorem KeyMap.ofStruct_renamedField (renames : Renames) (fields : List (Field Schema))
    (isOpen : Bool) :
    KeyMap.ofStruct renames (fields.map renamedField) isOpen =
      KeyMap.ofStruct renames fields isOpen := by
  rw [KeyMap.ofStruct, KeyMap.ofStruct, List.map_map]
  rfl

/-- A key map carries the fields of its struct from their names on one side to those on the
other. -/
theorem map_rule_ofStruct (renames : Renames) (fields : List (Field Schema)) (isOpen : Bool)
    (source : Side) :
    (KeyMap.ofStruct renames fields isOpen).pairs.map (KeyMap.rule source) =
      fields.map (fieldRule (renames.nameOn source) (renames.nameOn source.opposite)
        fun _ => some) := by
  rw [KeyMap.ofStruct, List.map_map]
  apply List.map_congr_left
  intro field _
  cases source <;> rfl

/-- A key map knows a field by its names on the two sides. -/
theorem KeyPair.on_ofField (renames : Renames) (field : Field Schema) (side : Side) :
    (⟨field.name, renames.encodedName field.name, field.isOptional⟩ : KeyPair).on side =
      renames.nameOn side field.name := by
  cases side <;> rfl

/-- The names in the key map of a struct are those of its fields. -/
theorem KeyMap.map_on_ofStruct (renames : Renames) (fields : List (Field Schema)) (isOpen : Bool)
    (side : Side) :
    (KeyMap.ofStruct renames fields isOpen).pairs.map (KeyPair.on · side) =
      fields.map fun field => renames.nameOn side field.name := by
  rw [KeyMap.ofStruct, List.map_map]
  exact List.map_congr_left fun field _ => KeyPair.on_ofField renames field side

/-- The key map of a struct declares the names of its fields. -/
theorem KeyMap.declares_ofStruct_iff (renames : Renames) (fields : List (Field Schema))
    (isOpen : Bool) (key : String) (side : Side) :
    (KeyMap.ofStruct renames fields isOpen).declares key side = true ↔
      key ∈ fields.map fun field => renames.nameOn side field.name := by
  rw [KeyMap.declares_iff, KeyMap.map_on_ofStruct]

/-- The members that the key map of a struct keeps are those under no name of a field. -/
theorem KeyMap.kept_ofStruct (renames : Renames) (fields : List (Field Schema)) (isOpen : Bool)
    (source : Side) (members : List (String × Value)) :
    (KeyMap.ofStruct renames fields isOpen).kept source members =
      members.filter fun member =>
        member.1 ∉ fields.map fun field => renames.nameOn source field.name := by
  apply List.filter_congr
  intro member _
  rw [Bool.eq_iff_iff, Bool.not_eq_true', ← Bool.not_eq_true, KeyMap.declares_ofStruct_iff]
  simp

/-- Without regard to errors, the key map of a struct translates members. -/
theorem toOption_carry_ofStruct (renames : Renames) (fields : List (Field Schema))
    (index : Option (IndexSignature Schema)) (source : Side) (members : List (String × Value)) :
    ((KeyMap.ofStruct renames fields index.isSome).carry source (.object members)).toOption =
      (translate? (fields.map (fieldRule (renames.nameOn source) (renames.nameOn source.opposite)
        fun _ => some)) (index.map fun _ => some) members).map
          fun outputs => .object (ofList outputs) := by
  rw [KeyMap.toOption_carry_object, map_rule_ofStruct, ← keepingOthers_isSome]
  rfl

/-- A field that the key map of a struct misses is a required field of the struct. -/
theorem exists_field_of_missing? {source : Side} {members : List (String × Value)} {isOpen : Bool}
    {pair : KeyPair}
    (missing : KeyMap.missing? source members (KeyMap.ofStruct renames fields isOpen).pairs =
      some pair) :
    ∃ field ∈ fields, pair.on source = renames.nameOn source field.name ∧
      field.isOptional = false ∧ find? members (renames.nameOn source field.name) = none := by
  obtain ⟨field, held, rfl⟩ := List.mem_map.mp (List.mem_of_find?_eq_some missing)
  have absent := List.find?_some missing
  simp only [Bool.and_eq_true, Bool.not_eq_true'] at absent
  rw [KeyPair.on_ofField, contains] at absent
  refine ⟨field, held, KeyPair.on_ofField renames field source, absent.1, ?_⟩
  exact Option.isNone_iff_eq_none.mp (Option.isSome_eq_false_iff.mp absent.2)

/-- A key that the key map of a struct finds in the way is an undeclared one, and the name of a
field on the other side. -/
theorem apart_of_collision? {source : Side} {members : List (String × Value)} {isOpen : Bool}
    {key : String}
    (collision : (KeyMap.ofStruct renames fields isOpen).collision? source members = some key) :
    key ∈ keys members ∧ (key ∉ fields.map fun field => renames.nameOn source field.name) ∧
      key ∈ fields.map fun field => renames.nameOn source.opposite field.name := by
  have found := List.find?_some collision
  rw [Bool.and_eq_true, Bool.not_eq_true', ← Bool.not_eq_true, KeyMap.declares_ofStruct_iff,
    KeyMap.declares_ofStruct_iff] at found
  exact ⟨List.mem_of_find?_eq_some collision, found⟩

/-- **The key map of a struct** misses a field, or finds a key in the way of one in an open struct,
or translates the members. -/
theorem carry_ofStruct (renames : Renames) (fields : List (Field Schema))
    (index : Option (IndexSignature Schema)) (source : Side) (members : List (String × Value)) :
    (∃ pair, KeyMap.missing? source members
        (KeyMap.ofStruct renames fields index.isSome).pairs = some pair ∧
      (KeyMap.ofStruct renames fields index.isSome).carry source (.object members) =
        .error ⟨"", .missingKey (pair.on source) source⟩) ∨
    (index.isSome ∧ ∃ key, (KeyMap.ofStruct renames fields index.isSome).carry source
      (.object members) = .error ⟨"", .keyCollision key⟩) ∨
    ∃ outputs,
      translate? (fields.map (fieldRule (renames.nameOn source) (renames.nameOn source.opposite)
        fun _ => some)) (index.map fun _ => some) members = some outputs ∧
      (KeyMap.ofStruct renames fields index.isSome).carry source (.object members) =
        .ok (.object (ofList outputs)) := by
  have outcome := toOption_carry_ofStruct renames fields index source members
  cases translated : translate? (fields.map (fieldRule (renames.nameOn source)
      (renames.nameOn source.opposite) fun _ => some)) (index.map fun _ => some) members with
  | some outputs =>
      rw [translated] at outcome
      exact Or.inr (Or.inr ⟨outputs, rfl, toOption_eq_some_iff.mp outcome⟩)
  | none =>
      -- one of the two steps fails, and with no collision to report it is the first one
      rw [translated, KeyMap.carry_object] at outcome
      rw [KeyMap.carry_object]
      cases missing : KeyMap.missing? source members
          (KeyMap.ofStruct renames fields index.isSome).pairs with
      | some pair => exact Or.inl ⟨pair, rfl, rfl⟩
      | none =>
          rw [missing] at outcome
          cases isOpen : (KeyMap.ofStruct renames fields index.isSome).isOpen with
          | false =>
              rw [isOpen] at outcome
              cases outcome
          | true =>
              refine Or.inr (Or.inl ⟨isOpen, ?_⟩)
              cases collision : (KeyMap.ofStruct renames fields index.isSome).collision? source
                  members with
              | some key => exact ⟨key, rfl⟩
              | none =>
                  rw [isOpen, collision] at outcome
                  cases outcome

/-! ## (3) The source -/

/-- A field on the decoded side of a renamed struct. -/
def decodedField (field : Field Schema) : Field Schema := { field with rename := none }

/-- The source of the codec of a struct. -/
def encodedStruct (renames : Renames) (fields : List (Field Schema))
    (index : Option (IndexSignature Schema)) : Schema :=
  .struct (fields.map (encodedField renames)) (index.map encodedIndex)

/-- The target of the codec of a struct. -/
def decodedStruct (fields : List (Field Schema)) (index : Option (IndexSignature Schema)) :
    Schema :=
  .struct (fields.map decodedField) index

/-- The codec of a struct goes from its encoded struct to its decoded struct by their key map. -/
theorem renameCodec_eq (renames : Renames) (fields : List (Field Schema))
    (index : Option (IndexSignature Schema)) :
    renameCodec renames fields index =
      .codec (encodedStruct renames fields index) (decodedStruct fields index)
        (.keys (KeyMap.ofStruct renames fields index.isSome)) := rfl

/-- What is no object fails at a struct for its kind, with renames or without. -/
theorem transcodeAt_renamedStruct_of_not_object (direction : Direction) (path : String)
    (inputName : String → String) (fields : List (Field Schema))
    (index : Option (IndexSignature Schema)) {value : Value} (other : value.members? = none) :
    transcodeAt direction path inputName (renamedStruct fields index) value =
      .error ⟨path, .wrongKind "object" value.kind⟩ := by
  rw [renamedStruct]
  split
  · exact transcodeAt_struct_of_not_object _ _ _ _ _ other
  · -- the near side of the codec is a struct in both directions
    rw [renameCodec_eq, transcodeAt_codec]
    cases direction
    · rw [nearSide, decodedStruct, transcodeAt_struct_of_not_object _ _ _ _ _ other]
      rfl
    · rw [nearSide, encodedStruct, transcodeAt_struct_of_not_object _ _ _ _ _ other]
      rfl

/-- A renamed struct rejects what is no object at the place of the value itself. -/
theorem transcodeAt_renamed_struct_of_not_object {fields : List (Field Schema)}
    {index : Option (IndexSignature Schema)} {applied : Schema} {direction : Direction}
    (applies : (Schema.struct fields index).applyRenames = .ok applied) {value : Value}
    (other : value.members? = none) (path : String) (inputName : String → String) :
    transcodeAt direction path inputName (Schema.struct fields index).renamed value =
      .error ⟨path, .wrongKind "object" value.kind⟩ := by
  rw [renamed_of_applyRenames applies, (applyRenames_struct_eq_ok applies).2.2.2]
  exact transcodeAt_renamedStruct_of_not_object _ _ _ _ _ other

/-- The source keeps what it reads. -/
theorem toOption_transcodeAt_encodedStruct (direction : Direction) (path : String)
    (inputName : String → String) (renames : Renames) (fields : List (Field Schema))
    (index : Option (IndexSignature Schema)) (members : List (String × Value)) :
    (transcodeAt direction path inputName (encodedStruct renames fields index)
      (.object members)).toOption =
      (translate? (fields.map (fieldRule renames.encodedName renames.encodedName fun _ => some))
        (index.map fun _ => some) members).map fun outputs => .object (ofList outputs) := by
  refine (agreesUnless_struct ?_ ?_ ?_ ?_).toOption_eq
  · exact fun _ => rfl
  · exact fun _ => rfl
  · intro field _ value _ path
    simp [encodedField, unknown, transcodeAt, AgreesUnless.ok]
  · intro signature _ member _ path
    simp [encodedIndex, unknown, transcodeAt, AgreesUnless.ok]

/-- The target carries members by its types, under their own names. -/
theorem toOption_transcodeAt_decodedStruct (direction : Direction) (path : String)
    (inputName : String → String) (fields : List (Field Schema))
    (index : Option (IndexSignature Schema)) (members : List (String × Value)) :
    (transcodeAt direction path inputName (decodedStruct fields index)
      (.object members)).toOption = structOutcome? direction fields index members := by
  have agrees : AgreesUnless (fun _ => False)
      (transcodeAt direction path inputName (.struct (fields.map decodedField) (index.map id))
        (.object members)) (structOutcome? direction fields index members) := by
    refine agreesUnless_struct (fun _ => rfl) (fun _ => rfl) ?_ ?_
    · intro field _ value _ path
      exact .of_toOption_eq (toOption_transcodeAt direction path id field.type value)
    · intro signature _ member _ path
      exact .of_toOption_eq (toOption_transcodeAt direction path id signature.value member.2)
  rw [decodedStruct]
  simpa using agrees.toOption_eq

/-- The decoded struct gives what a struct with its own names gives. -/
theorem outcome?_decodedStruct (direction : Direction) (fields : List (Field Schema))
    (index : Option (IndexSignature Schema)) (members : List (String × Value)) :
    (decodedStruct fields index).outcome? direction (.object members) =
      structOutcome? direction fields index members :=
  toOption_transcodeAt_decodedStruct direction "" id fields index members

/-! ## (4) Encoding -/

/-- The members stand in declaration order with the undeclared ones behind them: keeping all of them
reproduces the list. -/
def IsArranged (name : String → String) (fields : List (Field Schema))
    (index : Option (IndexSignature Schema)) (members : List (String × Value)) : Prop :=
  (keys members).Nodup ∧
    translate? (fields.map (fieldRule name name fun _ => some)) (index.map fun _ => some) members =
      some members

/-- Arranged members hold all the required ones. -/
theorem IsArranged.find?_ne_none {name : String → String} {members : List (String × Value)}
    (arranged : IsArranged name fields index members) {field : Field Schema} (held : field ∈ fields)
    (required : field.isOptional = false) : find? members (name field.name) ≠ none := by
  intro absent
  have admits := admits_of_translate? arranged.2 (List.mem_map_of_mem held)
  rw [Rule.Admits, read_fieldRule, absent] at admits
  exact absurd (required.symm.trans admits) Bool.false_ne_true

/-- What a struct or a key map puts out is arranged by the names written. -/
theorem isArranged_ofList {read write : String → String}
    {part : Field Schema → Value → Option Value}
    {openPart : IndexSignature Schema → Value → Option Value}
    {members outputs : List (String × Value)}
    (distinct : (fields.map fun field => write field.name).Nodup)
    (translated : translate? (fields.map (fieldRule read write part)) (index.map openPart) members =
      some outputs) : IsArranged write fields index (ofList outputs) := by
  refine ⟨nodup_keys_ofList outputs, ?_⟩
  -- to keep what has been written is to write it once
  have kept : translate? (fields.map (fieldRule write write fun _ => some))
      (index.map fun _ => some) outputs = some outputs := by
    rw [translate?_fieldRule _ _ _ distinct translated, thenPart_some, thenPart_some]
    exact translated
  rw [← keepingOthers_isSome] at kept ⊢
  exact translate?_keeping_ofList distinct kept

/-- What the target puts out is arranged by the names of the fields. -/
theorem isArranged_of_transcodeAt_decodedStruct {direction : Direction} {path : String}
    {inputName : String → String} {value output : Value}
    (distinct : (fields.map Field.name).Nodup)
    (walks : transcodeAt direction path inputName (decodedStruct fields index) value = .ok output) :
    ∃ members, output = .object members ∧ IsArranged id fields index members := by
  cases value with
  | object members =>
      rw [← toOption_eq_some_iff, toOption_transcodeAt_decodedStruct] at walks
      obtain ⟨outputs, translated, rfl⟩ := Option.map_eq_some_iff.mp walks
      exact ⟨ofList outputs, rfl, isArranged_ofList distinct translated⟩
  | _ =>
      rw [decodedStruct, transcodeAt_struct_of_not_object _ _ _ _ _ rfl] at walks
      cases walks

/-- Arranged members go through the source unchanged. -/
theorem transcodeAt_encodedStruct_of_isArranged {members : List (String × Value)}
    (arranged : IsArranged renames.encodedName fields index members) (direction : Direction)
    (path : String) (inputName : String → String) :
    transcodeAt direction path inputName (encodedStruct renames fields index) (.object members) =
      .ok (.object members) := by
  rw [← toOption_eq_some_iff, toOption_transcodeAt_encodedStruct, arranged.2, Option.map_some,
    ofList_of_nodup arranged.1]

/-- What a key map carries over is an object. -/
theorem exists_members_of_carry {map : KeyMap} {source : Side} {value output : Value}
    (carries : map.carry source value = .ok output) : ∃ members, value = .object members := by
  cases value with
  | object members => exact ⟨members, rfl⟩
  | _ => cases carries

/-- What the key map of a struct puts out is arranged by the names on the side that it leads to. -/
theorem isArranged_of_carry (source : Side) {value carried : Value}
    (distinct : (fields.map fun field => renames.nameOn source.opposite field.name).Nodup)
    (carries : (KeyMap.ofStruct renames fields index.isSome).carry source value = .ok carried) :
    ∃ members, carried = .object members ∧
      IsArranged (renames.nameOn source.opposite) fields index members := by
  obtain ⟨members, rfl⟩ := exists_members_of_carry carries
  rw [← toOption_eq_some_iff, toOption_carry_ofStruct] at carries
  obtain ⟨outputs, translated, rfl⟩ := Option.map_eq_some_iff.mp carries
  exact ⟨ofList outputs, rfl, isArranged_ofList distinct translated⟩

/-- What the key map of a struct puts out goes through the source unchanged. -/
theorem transcodeAt_encodedStruct_of_carry {value carried : Value}
    (distinct : (fields.map fun field => renames.encodedName field.name).Nodup)
    (carries : (KeyMap.ofStruct renames fields index.isSome).carry .decoded value = .ok carried)
    (direction : Direction) (path : String) (inputName : String → String) :
    transcodeAt direction path inputName (encodedStruct renames fields index) carried =
      .ok carried := by
  obtain ⟨members, rfl, arranged⟩ := isArranged_of_carry .decoded distinct carries
  exact transcodeAt_encodedStruct_of_isArranged arranged _ _ _

/-- **Encoding a renamed struct** is walking its target and carrying the outcome over; the source
changes nothing and fails for nothing. -/
theorem encode_renameCodec
    (distinct : (fields.map fun field => renames.encodedName field.name).Nodup) (path : String)
    (inputName : String → String) (value : Value) :
    transcodeAt .encode path inputName (renameCodec renames fields index) value = (do
      let walked ← transcodeAt .encode path id (decodedStruct fields index) value
      ((KeyMap.ofStruct renames fields index.isSome).carry .decoded walked).mapError
        (·.anchored path)) := by
  rw [renameCodec_eq, transcodeAt_codec]
  apply bind_congr
  intro walked
  show ((KeyMap.ofStruct renames fields index.isSome).carry .decoded walked).mapError _ >>= _ = _
  cases carries : (KeyMap.ofStruct renames fields index.isSome).carry .decoded walked with
  | error error => rfl
  | ok carried =>
      -- behind the key map nothing is left for the source to change
      show transcodeAt .encode path _ (encodedStruct renames fields index) carried = .ok carried
      exact transcodeAt_encodedStruct_of_carry distinct carries _ _ _

/-! ## (5) Decoding -/

section EncodedField

variable (renames : Renames) (field : Field Schema)

/-- An encoded field has the encoded name. -/
theorem name_encodedField :
    (encodedField renames field).name = renames.encodedName field.name := rfl

/-- An encoded field takes any value. -/
theorem type_encodedField : (encodedField renames field).type = unknown := rfl

/-- An encoded field is optional where the field is. -/
theorem isOptional_encodedField :
    (encodedField renames field).isOptional = field.isOptional := rfl

end EncodedField

/-- A required field that the key map misses is missed by the source, too. -/
theorem fieldOutputs_of_missing? {members : List (String × Value)} {pair : KeyPair}
    (missing : KeyMap.missing? .encoded members
      (KeyMap.ofStruct renames fields index.isSome).pairs = some pair)
    (direction : Direction) (path : String) (inputName : String → String) :
    fieldOutputs direction path inputName members (fields.map (encodedField renames)) =
      .error ⟨path, .missingKey (inputName (pair.on .encoded)) direction.inputSide⟩ := by
  rw [KeyMap.ofStruct] at missing
  -- both look at the fields in declaration order, and the source at nothing but their presence
  induction fields with
  | nil => cases missing
  | cons field rest induction =>
      rw [List.map_cons] at missing
      rw [List.map_cons, fieldOutputs, name_encodedField, isOptional_encodedField]
      cases found : find? members (renames.encodedName field.name) with
      | some value =>
          rw [KeyMap.missing?_cons_of_found found] at missing
          simp only [type_encodedField, unknown, transcodeAt]
          rw [induction missing]
          rfl
      | none =>
          rw [KeyMap.missing?_cons_of_absent found] at missing
          simp only
          by_cases mayMiss : field.isOptional = true
          · rw [if_pos mayMiss] at missing ⊢
            exact induction missing
          · rw [if_neg mayMiss] at missing ⊢
            cases missing
            rfl

/-- Where the key map misses no field, the source keeps what it reads. -/
theorem exists_transcodeAt_encodedStruct {members : List (String × Value)}
    (complete : KeyMap.missing? .encoded members
      (KeyMap.ofStruct renames fields index.isSome).pairs = none)
    (direction : Direction) (path : String) (inputName : String → String) :
    ∃ outputs,
      translate? (fields.map (fieldRule renames.encodedName renames.encodedName fun _ => some))
        (index.map fun _ => some) members = some outputs ∧
      transcodeAt direction path inputName (encodedStruct renames fields index)
        (.object members) = .ok (.object (ofList outputs)) := by
  have translates : (translate?
      (fields.map (fieldRule renames.encodedName renames.encodedName fun _ => some))
      (index.map fun _ => some) members).isSome := by
    rw [translate?_isSome_iff, List.forall_mem_map]
    refine ⟨fun field held => ?_, fun part kept member memberHeld unread => ⟨?_, ?_⟩⟩
    · rw [Rule.Admits]
      cases found : find? members (renames.encodedName field.name) with
      | some value => simp [found]
      | none =>
          -- an absent field is optional, since the key map misses none
          have present := List.find?_eq_none.mp complete
            ⟨field.name, renames.encodedName field.name, field.isOptional⟩
            (List.mem_map_of_mem held)
          simpa [found, KeyPair.on, contains] using present
    · rw [writeNames_fieldRule]
      rw [readNames_fieldRule] at unread
      exact unread
    · obtain ⟨_, _, rfl⟩ := Option.map_eq_some_iff.mp kept
      rfl
  obtain ⟨outputs, translated⟩ := Option.isSome_iff_exists.mp translates
  refine ⟨outputs, translated, ?_⟩
  rw [← toOption_eq_some_iff, toOption_transcodeAt_encodedStruct, translated]
  rfl

/-- The key map takes what the source has kept as it takes the members themselves. -/
theorem carry_ofList_outputs {members outputs : List (String × Value)}
    (distinct : (fields.map fun field => renames.encodedName field.name).Nodup)
    (unique : (keys members).Nodup)
    (translated :
      translate? (fields.map (fieldRule renames.encodedName renames.encodedName fun _ => some))
        (index.map fun _ => some) members = some outputs) :
    (KeyMap.ofStruct renames fields index.isSome).carry .encoded (.object (ofList outputs)) =
      (KeyMap.ofStruct renames fields index.isSome).carry .encoded (.object members) := by
  have written : (writeNames
      (fields.map (fieldRule renames.encodedName renames.encodedName fun _ => some))).Nodup := by
    rw [writeNames_fieldRule]
    exact distinct
  rw [ofList_of_nodup (nodup_keys_translate? written unique translated)]
  refine KeyMap.carry_congr ?_ fun isOpen => ?_
  · -- under the declared names the source has kept what stood there
    refine List.forall_mem_map.mpr ?_
    intro field held
    have kept := find?_translate?_write written translated (List.mem_map_of_mem held)
    rw [write_fieldRule, read_fieldRule, part_fieldRule, Option.bind_fun_some] at kept
    exact kept
  · -- an open source keeps the undeclared members, behind the declared ones
    obtain ⟨signature, rfl⟩ := Option.isSome_iff_exists.mp isOpen
    obtain ⟨declared, others, first, second, rfl⟩ := translate?_eq_some_iff.mp translated
    have same : others = (KeyMap.ofStruct renames fields true).kept .encoded members := by
      have keeps := eq_filter_of_undeclared? second
      rw [readNames_fieldRule] at keeps
      rw [KeyMap.kept_ofStruct]
      exact keeps
    have passed : (KeyMap.ofStruct renames fields true).kept .encoded declared = [] := by
      rw [KeyMap.kept_ofStruct, List.filter_eq_nil_iff]
      intro member held
      have known := mem_writeNames_of_declared? first (mem_keys_of_mem held)
      rw [writeNames_fieldRule] at known
      simpa [Renames.nameOn] using known
    show (KeyMap.ofStruct renames fields true).kept .encoded (declared ++ others) = _
    rw [same, KeyMap.kept_append, passed, List.nil_append, KeyMap.kept_kept]
    rfl

/-- The source and the key map agree: after the source, the key map gives what it gives without it,
and where the source fails, the key map fails alike. -/
theorem carry_after_source {value : Value}
    (distinct : (fields.map fun field => renames.encodedName field.name).Nodup)
    (unique : ∀ members, value = .object members → (keys members).Nodup) (path : String) :
    (do
      let walked ← transcodeAt .decode path id (encodedStruct renames fields index) value
      ((KeyMap.ofStruct renames fields index.isSome).carry .encoded walked).mapError
        (·.anchored path)) =
      ((KeyMap.ofStruct renames fields index.isSome).carry .encoded value).mapError
        (·.anchored path) := by
  cases value with
  | object members =>
      cases missing : KeyMap.missing? .encoded members
          (KeyMap.ofStruct renames fields index.isSome).pairs with
      | some pair =>
          rw [encodedStruct, transcodeAt_struct, fieldOutputs_of_missing? missing,
            KeyMap.carry_object, missing]
          exact congrArg Except.error (TranscodingError.anchored_root path _).symm
      | none =>
          obtain ⟨outputs, translated, walks⟩ :=
            exists_transcodeAt_encodedStruct missing .decode path id
          rw [walks]
          show Except.mapError _ _ = _
          rw [carry_ofList_outputs distinct (unique members rfl) translated]
  | _ =>
      rw [encodedStruct, transcodeAt_struct_of_not_object _ _ _ _ _ rfl]
      exact congrArg Except.error (TranscodingError.anchored_root path _).symm

/-- **Decoding a renamed struct** is carrying the object over and walking its target. -/
theorem decode_renameCodec {value : Value}
    (distinct : (fields.map fun field => renames.encodedName field.name).Nodup)
    (unique : ∀ members, value = .object members → (keys members).Nodup) (path : String)
    (inputName : String → String) :
    transcodeAt .decode path inputName (renameCodec renames fields index) value = (do
      let carried ← ((KeyMap.ofStruct renames fields index.isSome).carry .encoded value).mapError
        (·.anchored path)
      transcodeAt .decode path
        (Schema.inputName (.keys (KeyMap.ofStruct renames fields index.isSome)) .encoded)
        (decodedStruct fields index) carried) := by
  rw [renameCodec_eq, transcodeAt_codec, ← carry_after_source distinct unique, bind_assoc]
  rfl

end WireSchema.Schema

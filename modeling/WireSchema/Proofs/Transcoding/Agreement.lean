import WireSchema.Proofs.Items
import WireSchema.Proofs.Members.Translation
import WireSchema.Proofs.Runs
import WireSchema.Proofs.Transcoding.Outputs

/-! # Agreement of structs and tuples

A struct agrees with a translation of members, and a tuple with a translation of items, as soon as
the types inside them do. -/

namespace WireSchema

namespace Schema

open Members

variable {excused : TranscodingError → Prop} {direction : Direction} {path : String}
  {inputName : String → String}

/-! ## (1) Structs -/

/-- The rule by which a field is carried: from one name to another, with a part for its value. -/
def fieldRule (read write : String → String) (part : Field Schema → Value → Option Value)
    (field : Field Schema) : Rule Value Value :=
  ⟨read field.name, write field.name, field.isOptional, part field⟩

section Rule

variable (read write : String → String) (part : Field Schema → Value → Option Value)
  (field : Field Schema)

@[simp] theorem read_fieldRule : (fieldRule read write part field).read = read field.name := rfl

@[simp] theorem write_fieldRule : (fieldRule read write part field).write = write field.name := rfl

@[simp] theorem isOptional_fieldRule :
    (fieldRule read write part field).isOptional = field.isOptional := rfl

@[simp] theorem part_fieldRule : (fieldRule read write part field).part = part field := rfl

end Rule

/-- The rules of fields write the names that they are given to write. -/
theorem writeNames_fieldRule (read write : String → String)
    (part : Field Schema → Value → Option Value) (fields : List (Field Schema)) :
    writeNames (fields.map (fieldRule read write part)) =
      fields.map fun field => write field.name := by
  simp [writeNames]

/-- The rules of fields read the names that they are given to read. -/
theorem readNames_fieldRule (read write : String → String)
    (part : Field Schema → Value → Option Value) (fields : List (Field Schema)) :
    readNames (fields.map (fieldRule read write part)) =
      fields.map fun field => read field.name := by
  simp [readNames]

variable {fields : List (Field Schema)} {index : Option (IndexSignature Schema)}
  {retype : Field Schema → Field Schema}
  {resign : IndexSignature Schema → IndexSignature Schema} {rename : String → String}
  {part : Field Schema → Value → Option Value}
  {openPart : IndexSignature Schema → Value → Option Value} {members : List (String × Value)}

/-- The runs of fields agree with the declared outputs if each type agrees with its part. -/
theorem agreesUnless_fieldOutputs (named : ∀ field, (retype field).name = rename field.name)
    (optional : ∀ field, (retype field).isOptional = field.isOptional)
    (agrees : ∀ field ∈ fields, ∀ value, find? members (rename field.name) = some value → ∀ path,
      AgreesUnless excused (transcodeAt direction path id (retype field).type value)
        (part field value)) :
    AgreesUnless excused
      (fieldOutputs direction path inputName members (fields.map retype))
      (declared? members (fields.map (fieldRule rename rename part))) := by
  induction fields with
  | nil => exact .ok []
  | cons field rest induction =>
      rw [List.forall_mem_cons] at agrees
      rw [List.map_cons, List.map_cons, fieldOutputs, declared?, named, optional]
      cases found : find? members (rename field.name) with
      | none =>
          simp only [read_fieldRule, found]
          show AgreesUnless excused (if field.isOptional = true then _ else _)
            (if field.isOptional = true then _ else _)
          -- an absent field is passed over or fails on either side
          by_cases mayMiss : field.isOptional = true
          · rw [if_pos mayMiss, if_pos mayMiss]
            exact induction agrees.2
          · rw [if_neg mayMiss, if_neg mayMiss]
            exact .error _
      | some value =>
          simp only [read_fieldRule, part_fieldRule, found]
          apply (agrees.1 value found _).bind
          intro output _
          exact (induction agrees.2).bind fun outputs _ => .ok _

/-- The runs of undeclared members agree with the undeclared outputs if the type agrees with its
part. -/
theorem agreesUnless_undeclaredOutputs {declared : List String} {rules : List (Rule Value Value)}
    {type : Schema} {part : Value → Option Value} (reads : readNames rules = declared)
    (writes : writeNames rules = declared)
    (agrees : ∀ member ∈ members, ∀ path,
      AgreesUnless excused (transcodeAt direction path id type member.2) (part member.2)) :
    AgreesUnless excused (undeclaredOutputs direction path declared type members)
      (undeclared? rules part members) := by
  induction members with
  | nil => exact .ok []
  | cons member rest induction =>
      obtain ⟨key, value⟩ := member
      rw [List.forall_mem_cons] at agrees
      rw [undeclaredOutputs, undeclared?, reads, writes]
      by_cases known : key ∈ declared
      · simp only [List.contains_iff_mem, known, if_true]
        exact induction agrees.2
      · simp only [List.contains_iff_mem, known, if_false]
        apply (agrees.1 _).bind
        intro output _
        exact (induction agrees.2).bind fun outputs _ => .ok _

/-- **A struct agrees** with the translation of members by what its types agree with. -/
theorem agreesUnless_struct (named : ∀ field, (retype field).name = rename field.name)
    (optional : ∀ field, (retype field).isOptional = field.isOptional)
    (declaredAgree : ∀ field ∈ fields, ∀ value, find? members (rename field.name) = some value →
      ∀ path, AgreesUnless excused (transcodeAt direction path id (retype field).type value)
        (part field value))
    (othersAgree : ∀ signature ∈ index, ∀ member ∈ members, ∀ path,
      AgreesUnless excused (transcodeAt direction path id (resign signature).value member.2)
        (openPart signature member.2)) :
    AgreesUnless excused
      (transcodeAt direction path inputName
        (.struct (fields.map retype) (index.map resign)) (.object members))
      ((translate? (fields.map (fieldRule rename rename part)) (index.map openPart) members).map
        fun outputs => .object (ofList outputs)) := by
  -- undeclared are the keys that no rule reads, and these are those that no rule writes
  have names : (fields.map retype).map Field.name = fields.map fun field => rename field.name := by
    simp [named]
  have others : AgreesUnless excused
      (otherOutputs direction path ((fields.map retype).map Field.name) (index.map resign) members)
      (others? (fields.map (fieldRule rename rename part)) (index.map openPart) members) := by
    rw [names]
    cases index with
    | none => exact .ok []
    | some signature =>
        exact agreesUnless_undeclaredOutputs (readNames_fieldRule rename rename part fields)
          (writeNames_fieldRule rename rename part fields) (othersAgree signature rfl)
  rw [transcodeAt_struct, translate?]
  simp only [Option.bind_eq_bind, Option.map_bind]
  apply (agreesUnless_fieldOutputs named optional declaredAgree).bind
  intro declared _
  simp only [Function.comp, Option.map_bind]
  exact others.bind fun rest _ => .ok _

/-! ## (2) Tuples -/

/-- The runs of items agree with their translation if each slot agrees with its part. -/
theorem agreesUnless_itemOutputs {slot : Nat → Schema} {position : Nat}
    {part : Nat → Value → Option Value} {items : List Value}
    (agrees : ∀ index item, items[index]? = some item → ∀ path,
      AgreesUnless excused (transcodeAt direction path id (slot index) item) (part index item)) :
    AgreesUnless excused (itemOutputs direction path slot position items)
      (Items.translate? part items) := by
  induction items generalizing slot position part with
  | nil => exact .ok []
  | cons item items induction =>
      rw [itemOutputs, Items.translate?]
      apply (agrees 0 item rfl _).bind
      intro output _
      refine (induction fun index other found => ?_).bind fun outputs _ => .ok _
      exact agrees (index + 1) other found

end Schema

end WireSchema

import WireSchema.Proofs.Renaming.Applied
import WireSchema.Proofs.SchemaDocument.Schemas

/-! # Conflicts between renames

When the renames of a schema cannot be applied, and which conflict is reported. Each struct with
renames is looked at before the schemas inside it, so that conflicts come up in the order of the
parts of the schema (`error?_applyRenames`). Inside a struct the fields claim their encoded names
one after the other, and the first field whose name is claimed already is the second one of the
conflict (`isFirstConflict_of_findConflict`). -/

namespace WireSchema

open Members

/-! ## (1) The fields of a struct -/

/-- **The first conflict** between the fields of a struct: the encoded names of all fields before
the second field are distinct, and the first field is the one among them that has the encoded name
of the second. -/
def IsFirstConflict {τ : Type} (fields : List (Field τ)) (conflict : RenameConflict) : Prop :=
  ∃ earlier second later first, fields = earlier ++ second :: later ∧
    (earlier.map fun field => (Renames.ofFields fields).encodedName field.name).Nodup ∧
    first ∈ earlier ∧
    (Renames.ofFields fields).encodedName first.name =
      (Renames.ofFields fields).encodedName second.name ∧
    conflict = ⟨(Renames.ofFields fields).encodedName second.name, first.name, second.name⟩

section Fields

variable {τ : Type} {renames : Renames} {fields : List (Field τ)} {conflict : RenameConflict}

/-- The encoded names that fields claim, each with the name of its field. -/
def claims (renames : Renames) (fields : List (Field τ)) : List (String × String) :=
  fields.map fun field => (renames.encodedName field.name, field.name)

/-- The claims stand under the encoded names, in the order of the fields. -/
theorem keys_claims (renames : Renames) (fields : List (Field τ)) :
    keys (claims renames fields) = fields.map fun field => renames.encodedName field.name := by
  rw [keys, claims, List.map_map]
  rfl

/-- A field whose encoded name is free claims it behind the others. -/
theorem insert_claims {field : Field τ} {done : List (Field τ)}
    (free : find? (claims renames done) (renames.encodedName field.name) = none) :
    insert (claims renames done) (renames.encodedName field.name) field.name =
      claims renames (done ++ [field]) := by
  rw [insert_of_fresh _ ((find?_eq_none_iff _ _).mp free), claims, claims, List.map_append]
  rfl

/-- A conflict is found at the first field whose encoded name has been claimed, by the field that
has claimed it. -/
theorem exists_of_conflictAfter {done : List (Field τ)}
    (distinct : (done.map fun field => renames.encodedName field.name).Nodup)
    (found : conflictAfter renames (claims renames done) fields = some conflict) :
    ∃ between second later first, fields = between ++ second :: later ∧
      ((done ++ between).map fun field => renames.encodedName field.name).Nodup ∧
      first ∈ done ++ between ∧
      renames.encodedName first.name = renames.encodedName second.name ∧
      conflict = ⟨renames.encodedName second.name, first.name, second.name⟩ := by
  -- the fields that have been passed are those that have claimed their names
  induction fields generalizing done with
  | nil => cases found
  | cons field rest induction =>
      rw [conflictAfter] at found
      cases claimed : find? (claims renames done) (renames.encodedName field.name) with
      | some name =>
          rw [claimed] at found
          cases found
          obtain ⟨first, held, same⟩ := List.mem_map.mp (mem_of_find? claimed)
          obtain ⟨sameEncoded, rfl⟩ := Prod.mk.inj same
          exact ⟨[], field, rest, first, rfl, by rwa [List.append_nil], by rwa [List.append_nil],
            sameEncoded, rfl⟩
      | none =>
          rw [claimed] at found
          simp only [insert_claims claimed] at found
          have fresh : renames.encodedName field.name ∉
              done.map fun field => renames.encodedName field.name := by
            rw [← keys_claims]
            exact (find?_eq_none_iff _ _).mp claimed
          have distinctWith :
              ((done ++ [field]).map fun field => renames.encodedName field.name).Nodup := by
            rw [List.map_append, List.map_singleton]
            refine List.nodup_append.mpr ⟨distinct, List.nodup_singleton _, ?_⟩
            rintro name held _ last rfl
            rw [List.mem_singleton.mp last] at held
            exact fresh held
          obtain ⟨between, second, later, first, rfl, others⟩ := induction distinctWith found
          rw [List.append_assoc] at others
          exact ⟨field :: between, second, later, first, rfl, others⟩

/-- **The conflict that is found** is the first one. -/
theorem isFirstConflict_of_findConflict
    (found : findConflict (Renames.ofFields fields) fields = some conflict) :
    IsFirstConflict fields conflict := by
  -- at the start no name is claimed
  have none : (([] : List (Field τ)).map fun field =>
      (Renames.ofFields fields).encodedName field.name).Nodup := List.nodup_nil
  obtain ⟨earlier, second, later, first, whole, conflicts⟩ := exists_of_conflictAfter none found
  exact ⟨earlier, second, later, first, whole, conflicts⟩

/-- Where no name is repeated, the fields of a conflict have different names. -/
theorem IsFirstConflict.first_ne_second (names : (fields.map Field.name).Nodup)
    (conflicts : IsFirstConflict fields conflict) : conflict.first ≠ conflict.second := by
  obtain ⟨earlier, second, later, first, rfl, _, held, _, rfl⟩ := conflicts
  rw [List.map_append, List.nodup_append] at names
  exact names.2.2 _ (List.mem_map_of_mem held) _ List.mem_cons_self

end Fields

namespace Schema

/-! ## (2) Whole schemas -/

/-- A struct whose renames conflict: a field is renamed, and two fields have one encoded name. -/
def IsConflicted (schema : Schema) : Prop :=
  ∃ fields index, schema = .struct fields index ∧ (∃ field ∈ fields, field.rename.isSome) ∧
    ¬ (namesOn .encoded fields).Nodup

/-- The conflict between the fields of a struct with renames. -/
def ownConflict? : Schema → Option RenameConflict
  | .struct fields _ =>
      if (Renames.ofFields fields).isEmpty then none
      else findConflict (Renames.ofFields fields) fields
  | .leaf _ | .tuple _ _ _ | .codec _ _ _ => none

/-- A struct reports a conflict of its own exactly when its renames conflict. -/
theorem isSome_ownConflict?_iff (schema : Schema) :
    schema.ownConflict?.isSome ↔ schema.IsConflicted := by
  cases schema with
  | struct fields index =>
      have renamed : (∃ field ∈ fields, field.rename.isSome) ↔
          ¬ (Renames.ofFields fields).isEmpty = true := by
        rw [Renames.isEmpty_ofFields_iff]
        simp [Option.isSome_iff_ne_none]
      have conflicts : (findConflict (Renames.ofFields fields) fields).isSome ↔
          ¬ (namesOn .encoded fields).Nodup := by
        rw [← Option.ne_none_iff_isSome]
        exact not_congr (findConflict_eq_none_iff _ _)
      have own : (Schema.struct fields index).IsConflicted ↔
          (∃ field ∈ fields, field.rename.isSome) ∧ ¬ (namesOn .encoded fields).Nodup := by
        constructor
        · rintro ⟨_, _, ⟨⟩, both⟩
          exact both
        · intro both
          exact ⟨fields, index, rfl, both⟩
      rw [own, renamed, ← conflicts, ownConflict?]
      by_cases plain : (Renames.ofFields fields).isEmpty = true
      · simp [plain]
      · simp [plain]
  | _ => simp [ownConflict?, IsConflicted]

section Inside

variable {fields : List (Field Schema)} {index : Option (IndexSignature Schema)}
  {elements : List (Element Schema)} {rest : Option Schema}

/-- The first conflict in fields is the first one in their types. -/
theorem error?_applyRenamesFields
    (each : ∀ field ∈ fields,
      error? field.type.applyRenames = (field.type.parts false).findSome? ownConflict?) :
    error? (applyRenamesFields fields) = (partsOfFields false fields).findSome? ownConflict? := by
  induction fields with
  | nil => rfl
  | cons field rest induction =>
      rw [List.forall_mem_cons] at each
      rw [applyRenamesFields, partsOfFields, List.findSome?_append, ← each.1, ← induction each.2]
      exact error?_bind fun type => error?_bind_pure _ _

/-- The first conflict in an index signature is the first one in its value. -/
theorem error?_applyRenamesIndex
    (each : ∀ signature ∈ index,
      error? signature.value.applyRenames = (signature.value.parts false).findSome? ownConflict?) :
    error? (applyRenamesIndex index) = (partsOfIndex false index).findSome? ownConflict? := by
  cases index with
  | none => rfl
  | some signature =>
      rw [applyRenamesIndex, partsOfIndex, ← each signature rfl]
      exact error?_bind_pure _ _

/-- The first conflict in elements is the first one in their types. -/
theorem error?_applyRenamesElements
    (each : ∀ element ∈ elements,
      error? element.type.applyRenames = (element.type.parts false).findSome? ownConflict?) :
    error? (applyRenamesElements elements) =
      (partsOfElements false elements).findSome? ownConflict? := by
  induction elements with
  | nil => rfl
  | cons element rest induction =>
      rw [List.forall_mem_cons] at each
      rw [applyRenamesElements, partsOfElements, List.findSome?_append, ← each.1,
        ← induction each.2]
      exact error?_bind fun type => error?_bind_pure _ _

/-- The first conflict in a rest is the first one in its type. -/
theorem error?_applyRenamesRest
    (each : ∀ type ∈ rest,
      error? type.applyRenames = (type.parts false).findSome? ownConflict?) :
    error? (applyRenamesRest rest) = (partsOfRest false rest).findSome? ownConflict? := by
  cases rest with
  | none => rfl
  | some type =>
      rw [applyRenamesRest, partsOfRest, ← each type rfl]
      exact error?_bind_pure _ _

end Inside

/-- **The conflict that is reported** is that of the first part which has one of its own. -/
theorem error?_applyRenames (schema : Schema) :
    error? schema.applyRenames = (schema.parts false).findSome? ownConflict? := by
  induction schema using Schema.induction with
  | leaf kind => rfl
  | struct fields index fieldsInduction indexInduction =>
      have inside : ∀ result : List (Field Schema) → Option (IndexSignature Schema) → Schema,
          error? (do
            let types ← applyRenamesFields fields
            let indexType ← applyRenamesIndex index
            return result types indexType) =
            (partsOfFields false fields ++ partsOfIndex false index).findSome? ownConflict? := by
        intro result
        rw [List.findSome?_append, ← error?_applyRenamesFields fieldsInduction,
          ← error?_applyRenamesIndex indexInduction]
        exact error?_bind fun types => error?_bind_pure _ _
      rw [applyRenames, parts, List.findSome?_cons, ownConflict?]
      by_cases plain : (Renames.ofFields fields).isEmpty = true
      · simp only [plain, if_true]
        exact inside Schema.struct
      · simp only [plain]
        -- a conflict of the struct itself comes before those of the schemas inside it
        cases findConflict (Renames.ofFields fields) fields with
        | some conflict => rfl
        | none => exact inside (renameCodec (Renames.ofFields fields))
  | tuple elements rest isReadonly elementsInduction restInduction =>
      rw [applyRenames, parts, List.findSome?_cons, ownConflict?, List.findSome?_append,
        ← error?_applyRenamesElements elementsInduction, ← error?_applyRenamesRest restInduction]
      exact error?_bind fun types => error?_bind_pure _ _
  | codec source target conversion sourceInduction _ =>
      rw [applyRenames, parts, List.findSome?_cons, ownConflict?, List.findSome?_append,
        ← sourceInduction]
      exact error?_bind fun type => rfl

/-- **Renames cannot be applied** exactly when those of some struct outside the targets of codecs
conflict; then the first conflict of the first such struct is reported. In a schema that a document
describes, the two fields of the conflict have different names. -/
theorem applyRenames_eq_error (schema : Schema) :
    ((∃ conflict, schema.applyRenames = .error conflict) ↔
      ∃ part ∈ schema.parts false, part.IsConflicted) ∧
    (∀ conflict, schema.applyRenames = .error conflict →
      ∃ front fields index back, schema.parts false = front ++ .struct fields index :: back ∧
        (∀ part ∈ front, ¬ part.IsConflicted) ∧ (Schema.struct fields index).IsConflicted ∧
        IsFirstConflict fields conflict) ∧
    ∀ document conflict, SchemaDocument.toSchema document = .ok schema →
      schema.applyRenames = .error conflict → conflict.first ≠ conflict.second := by
  have reported : ∀ conflict, schema.applyRenames = .error conflict →
      ∃ front fields index back, schema.parts false = front ++ .struct fields index :: back ∧
        (∀ part ∈ front, ¬ part.IsConflicted) ∧ (Schema.struct fields index).IsConflicted ∧
        IsFirstConflict fields conflict := by
    intro conflict fails
    have first := error?_eq_some_iff.mpr fails
    -- the first error is that of the first part with a conflict of its own
    rw [error?_applyRenames, List.findSome?_eq_some_iff] at first
    obtain ⟨front, part, back, whole, own, free⟩ := first
    have passed : ∀ part ∈ front, ¬ part.IsConflicted := by
      intro part held conflicted
      have some := (isSome_ownConflict?_iff part).mpr conflicted
      rw [free part held] at some
      cases some
    have conflicted := (isSome_ownConflict?_iff part).mp (by rw [own]; rfl)
    obtain ⟨fields, index, rfl, _⟩ := id conflicted
    rw [ownConflict?, Option.ite_none_left_eq_some] at own
    exact ⟨front, fields, index, back, whole, passed, conflicted,
      isFirstConflict_of_findConflict own.2⟩
  refine ⟨?_, reported, ?_⟩
  · have fails : (∃ conflict, schema.applyRenames = .error conflict) ↔
        (error? schema.applyRenames).isSome := by
      simp only [Option.isSome_iff_exists, error?_eq_some_iff]
    rw [fails, error?_applyRenames, List.findSome?_isSome_iff]
    simp only [isSome_ownConflict?_iff]
  · intro document conflict describes fails
    have documented := SchemaDocument.documented_of_toSchema describes
    obtain ⟨front, fields, index, back, whole, _, _, conflicts⟩ := reported conflict fails
    have held : .struct fields index ∈ schema.parts false := by
      rw [whole]
      exact List.mem_append_right _ List.mem_cons_self
    exact conflicts.first_ne_second (documented.nodup_names held)

/-- Of an order inside a tuple the item conflicts: its code is renamed to the name of another
field. The order itself has renames without a conflict and is passed. -/
theorem applyRenames_eq_error_order :
    let document : SchemaDocument := .tuple [⟨.struct
      [⟨"id", .leaf .string, false, false, some "order_id", []⟩,
        ⟨"item", .struct [⟨"label", .leaf .string, true, false, none, []⟩,
          ⟨"code", .leaf .number, false, false, some "label", []⟩] none, false, false, none, []⟩]
      none, false⟩] none false
    let orders : Schema := .tuple [⟨.struct
      [⟨"id", .leaf .string, false, false, some "order_id", []⟩,
        ⟨"item", .struct [⟨"label", .leaf .string, true, false, none, []⟩,
          ⟨"code", .leaf .number, false, false, some "label", []⟩] none, false, false, none, []⟩]
      none, false⟩] none false
    let conflict : RenameConflict := ⟨"label", "label", "code"⟩
    document.toSchema = .ok orders ∧ orders.applyRenames = .error conflict ∧
      (∃ part ∈ orders.parts false, part.IsConflicted) ∧
      (∃ front fields index back, orders.parts false = front ++ .struct fields index :: back ∧
        (∀ part ∈ front, ¬ part.IsConflicted) ∧ (Schema.struct fields index).IsConflicted ∧
        IsFirstConflict fields conflict) ∧
      conflict.first ≠ conflict.second := by
  intro document orders conflict
  have describes : document.toSchema = .ok orders := rfl
  have fails : orders.applyRenames = .error conflict := rfl
  obtain ⟨conflicted, reported, apart⟩ := applyRenames_eq_error orders
  exact ⟨describes, fails, conflicted.mp ⟨conflict, fails⟩, reported conflict fails,
    apart document conflict describes fails⟩

end Schema

end WireSchema

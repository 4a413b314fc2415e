import WireSchema.Proofs.Renaming.Meeting
import WireSchema.Proofs.RoundTrip.Tidying
import WireSchema.Proofs.TwoRuns.Renamed

/-! # Undeclared keys of closed structs

Closed structs drop undeclared keys, so that these never matter: a documented schema with its
renames applied does to a value what it does to the value without them (`goesAlike_tidied`), and two
values that differ in nothing else have one outcome, or fail with one error
(`transcode_eq_of_differInUndeclared`). A key is declared when it is the name of a field on the side
that the input stands on; that it may be the name of another field on the other side changes
nothing. -/

namespace WireSchema.Schema

open Members

variable {direction : Direction} {side : Side} {fields : List (Field Schema)}

/-- **Two values differ only in undeclared keys of closed structs**, at any depth: without these
keys they are equal. -/
def DifferInUndeclared (side : Side) (schema : Schema) (left right : Value) : Prop :=
  schema.tidied side id left = schema.tidied side id right

/-- Objects at a closed struct differ in undeclared keys only, when one of them has another member
under an undeclared key. -/
theorem differInUndeclared_of_notMem {key : String} (undeclared : key ∉ namesOn side fields)
    (extra : Value) (before after : List (String × Value)) :
    (Schema.struct fields none).DifferInUndeclared side
      (.object (before ++ (key, extra) :: after)) (.object (before ++ after)) := by
  have dropped : keptName? side fields (none : Option (IndexSignature Schema)).isSome key = none :=
    if_neg (by simpa using undeclared)
  rw [DifferInUndeclared, tidied_struct, tidied_struct, tidiedMembers, tidiedMembers, rekey, rekey,
    List.filterMap_append, List.filterMap_append, ← rekey, ← rekey, ← rekey,
    rekey_cons_of_dropped dropped]

/-- An open struct keeps all members. -/
theorem tidiedMembers_of_open (signature : IndexSignature Schema) (stamp : Value → Value)
    (members : List (String × Value)) :
    tidiedMembers side stamp fields (some signature) members =
      mapValues (tidiedMember side stamp fields (some signature)) members := by
  have kept : keptName? side fields (some signature).isSome = fun key => some key :=
    funext fun _ => if_pos (Or.inl rfl)
  rw [tidiedMembers, kept]
  exact rekey_some id _ members

/-- Whatever goes through a schema goes like itself. -/
theorem goesAlike_refl (schema : Schema) (value : Value) :
    schema.GoesAlike direction Eq value value :=
  fun _ _ => .refl (fun _ => rfl) _

/-- The members of an object go like those that are left when it is tidied. -/
theorem membersGoAlike_tidied {index : Option (IndexSignature Schema)}
    {members : List (String × Value)} (distinct : (namesOn direction.inputSide fields).Nodup)
    (unique : (keys members).Nodup)
    (declaredAlike : ∀ field ∈ fields, ∀ key inner, find? members key = some inner →
      field.type.renamed.GoesAlike direction Eq inner
        (field.type.tidied direction.inputSide id inner))
    (othersAlike : ∀ signature ∈ index, ∀ key inner, find? members key = some inner →
      signature.value.renamed.GoesAlike direction Eq inner
        (signature.value.tidied direction.inputSide id inner)) :
    MembersGoAlike direction Eq fields index members
      (tidiedMembers direction.inputSide id fields index members)
      ((Renames.ofFields fields).nameOn direction.inputSide) where
  declared field held := by
    rw [find?_tidiedMembers (Or.inr (List.mem_map_of_mem held)), tidiedMember,
      memberType_of_mem distinct held]
    cases found : find? members
        ((Renames.ofFields fields).nameOn direction.inputSide field.name) with
    | none => exact .none
    | some inner => exact .some (declaredAlike field held _ inner found)
  others signature isOpen := by
    cases isOpen
    rw [tidiedMembers_of_open]
    refine .mapValues fun member held undeclared => ?_
    rw [tidiedMember, memberType_of_notMem undeclared]
    exact othersAlike signature rfl member.1 member.2 (find?_of_mem unique held)

/-- **A documented schema goes alike on a value and on what is left of it** without the undeclared
keys of closed structs. -/
theorem goesAlike_tidied {schema applied : Schema} (documented : schema.Documented)
    (applies : schema.applyRenames = .ok applied) {value : Value}
    (distinct : value.HasDistinctKeys) :
    schema.renamed.GoesAlike direction Eq value (schema.tidied direction.inputSide id value) := by
  have meets := meets_of_documented documented applies distinct
  clear documented applies distinct
  induction meets with
  | leaf kind value =>
      rw [tidied_leaf]
      exact goesAlike_refl _ value
  | @object fields index _ members names applies unique _ _ declaredInduction othersInduction =>
      -- the walk reads the declared names only, and these are left where they are declared
      rw [tidied_struct]
      exact goesAlike_struct isCongruence_eq names applies unique (nodup_keys_tidiedMembers unique)
        (membersGoAlike_tidied (nodup_namesOn names applies _) unique declaredInduction
          othersInduction)
  | noObject _ other =>
      rw [tidied, reshape_struct_of_not_object _ _ _ other]
      exact goesAlike_refl _ _
  | @array elements rest isReadonly _ items applies _ slotsInduction =>
      rw [tidied_tuple]
      refine goesAlike_tuple isCongruence_eq applies
        (Items.corresponds_of_getElem? List.length_mapIdx.symm ?_)
      intro position item _ found foundTidied
      rw [List.getElem?_mapIdx, found] at foundTidied
      cases foundTidied
      exact slotsInduction position item found
  | noArray _ other =>
      rw [tidied, reshape_tuple_of_not_array _ _ _ _ other]
      exact goesAlike_refl _ _
  | timestampText value =>
      rw [tidied_timestampText]
      exact goesAlike_refl _ value
  | booleanText truthy falsy value =>
      rw [tidied_booleanText]
      exact goesAlike_refl _ value

/-- **Undeclared keys of closed structs never matter**: values that differ in nothing else become
the same, in either direction, or fail with the same error. -/
theorem transcode_eq_of_differInUndeclared {document : SchemaDocument} {schema applied : Schema}
    (describes : document.toSchema = .ok schema) (applies : schema.applyRenames = .ok applied)
    {left right : Value} (leftDistinct : left.HasDistinctKeys)
    (rightDistinct : right.HasDistinctKeys)
    (differ : schema.DifferInUndeclared direction.inputSide left right) :
    applied.transcode direction left = applied.transcode direction right := by
  have documented := SchemaDocument.documented_of_toSchema describes
  have dropped : ∀ value : Value, value.HasDistinctKeys →
      schema.renamed.transcode direction value =
        schema.renamed.transcode direction (schema.tidied direction.inputSide id value) :=
    fun _ distinct => (goesAlike_tidied documented applies distinct "" id).eq
  rw [← renamed_of_applyRenames applies, dropped left leftDistinct, dropped right rightDistinct,
    differ]

/-- A parcel in an open list bears the decoded name of its timestamp as an undeclared key, which
changes nothing. -/
theorem transcode_eq_of_differInUndeclared_parcel :
    let document : SchemaDocument := .struct
      [⟨"parcels", .tuple [⟨.struct [⟨"sent", .timestampText, false, false, some "at", []⟩] none,
        false⟩] none false, false, false, none, []⟩] (some ⟨none, .leaf .unknown, false⟩)
    let schema : Schema := .struct
      [⟨"parcels", .tuple [⟨.struct [⟨"sent", timestampText, false, false, some "at", []⟩] none,
        false⟩] none false, false, false, none, []⟩] (some ⟨.string, .leaf .unknown, false⟩)
    let left : Value := .object [("parcels", .array [.object
      [("sent", .bool true), ("at", .string "1970-01-01T00:00:00Z")]]), ("sent", .null)]
    let right : Value := .object [("parcels", .array [.object
      [("at", .string "1970-01-01T00:00:00Z")]]), ("sent", .null)]
    document.toSchema = .ok schema ∧ schema.DifferInUndeclared .encoded left right ∧
      schema.renamed.transcode .decode left = schema.renamed.transcode .decode right ∧
      schema.renamed.transcode .decode right = .ok (.object
        [("parcels", .array [.object [("sent", .date ⟨0, 0⟩)]]), ("sent", .null)]) := by
  intro document schema left right
  have describes : document.toSchema = .ok schema := rfl
  have leftDistinct : left.HasDistinctKeys := by
    simp [left, Value.HasDistinctKeys, Value.MembersHaveDistinctKeys, Value.ItemsHaveDistinctKeys,
      keys]
  have rightDistinct : right.HasDistinctKeys := by
    simp [right, Value.HasDistinctKeys, Value.MembersHaveDistinctKeys, Value.ItemsHaveDistinctKeys,
      keys]
  have differ : schema.DifferInUndeclared .encoded left right := by
    rfl
  exact ⟨describes, differ,
    transcode_eq_of_differInUndeclared describes rfl leftDistinct rightDistinct differ,
    by decide +kernel⟩

end WireSchema.Schema

import WireSchema.Proofs.Members.Insertion

/-! # Members under other names

Giving members other names in place, where some may be dropped. Where the names are told apart, what
is found under a new name is what was found under the old one. -/

namespace WireSchema.Members

variable {α β : Type}

/-- Members under other names: `name?` tells the name under which a key is kept, if it is kept, and
`change` what becomes of its entry. -/
def rekey (name? : String → Option String) (change : String → α → β)
    (members : List (String × α)) : List (String × β) :=
  members.filterMap fun member =>
    (name? member.1).map fun name => (name, change member.1 member.2)

section Cons

variable {name? : String → Option String} {change : String → α → β} {key : String}

@[simp] theorem rekey_nil : rekey name? change [] = [] := rfl

/-- A member whose key has a name is put under that name. -/
theorem rekey_cons_of_kept {name : String} (kept : name? key = some name) (entry : α)
    (rest : List (String × α)) :
    rekey name? change ((key, entry) :: rest) =
      (name, change key entry) :: rekey name? change rest := by
  simp [rekey, kept]

/-- A member whose key has no name is left out. -/
theorem rekey_cons_of_dropped (dropped : name? key = none) (entry : α)
    (rest : List (String × α)) :
    rekey name? change ((key, entry) :: rest) = rekey name? change rest := by
  simp [rekey, dropped]

end Cons

/-- Where all members are kept, each of them gets its new name. -/
theorem rekey_some (rename : String → String) (change : String → α → β)
    (members : List (String × α)) :
    rekey (fun key => some (rename key)) change members =
      members.map fun member => (rename member.1, change member.1 member.2) := by
  simp [rekey]

/-- Giving new names is compatible with having changed the entries before. -/
theorem rekey_eq_map_mapValues (rename : String → String) (change : String → α → β)
    (members : List (String × α)) :
    rekey (fun key => some (rename key)) change members =
      (mapValues change members).map fun member => (rename member.1, member.2) := by
  simp [rekey_some, mapValues]

/-- Members that keep their names and their entries are left as they are. -/
theorem rekey_eq_self {name? : String → Option String} {change : String → α → α}
    {members : List (String × α)}
    (kept : ∀ member ∈ members,
      name? member.1 = some member.1 ∧ change member.1 member.2 = member.2) :
    rekey name? change members = members := by
  induction members with
  | nil => rfl
  | cons member rest induction =>
      rw [List.forall_mem_cons] at kept
      obtain ⟨⟨keeps, unchanged⟩, later⟩ := kept
      rw [rekey_cons_of_kept keeps, unchanged, induction later]

/-- What is made of the entries of renamed members can be made of them before. -/
theorem mapValues_rekey {γ : Type} {name? : String → Option String} {change : String → α → β}
    {later : β → γ} {both : String → α → γ} {members : List (String × α)}
    (same : ∀ member ∈ members, later (change member.1 member.2) = both member.1 member.2) :
    mapValues (fun _ => later) (rekey name? change members) = rekey name? both members := by
  induction members with
  | nil => rfl
  | cons member rest induction =>
      obtain ⟨first, others⟩ := List.forall_mem_cons.mp same
      cases kept : name? member.1 with
      | none => rw [rekey_cons_of_dropped kept, rekey_cons_of_dropped kept, induction others]
      | some name =>
          rw [rekey_cons_of_kept kept, rekey_cons_of_kept kept, mapValues_cons, first,
            induction others]

/-- The keys are the names that the keys have, in their order. -/
theorem keys_rekey (name? : String → Option String) (change : String → α → β)
    (members : List (String × α)) :
    keys (rekey name? change members) = (keys members).filterMap name? := by
  induction members with
  | nil => rfl
  | cons member rest induction =>
      obtain ⟨key, entry⟩ := member
      cases kept : name? key with
      | none => rw [rekey_cons_of_dropped kept, keys_cons, List.filterMap_cons_none kept, induction]
      | some name =>
          rw [rekey_cons_of_kept kept, keys_cons, keys_cons, List.filterMap_cons_some kept,
            induction]

/-- Under a name that only one key is given stands what stood under that key. -/
theorem find?_rekey {name? : String → Option String} {name origin : String}
    (only : ∀ key, name? key = some name ↔ key = origin) (change : String → α → β)
    (members : List (String × α)) :
    find? (rekey name? change members) name = (find? members origin).map (change origin) := by
  induction members with
  | nil => rfl
  | cons member rest induction =>
      obtain ⟨key, entry⟩ := member
      by_cases same : key = origin
      · -- the member that gets the name is the first one of its key, and so it is found first
        subst same
        rw [rekey_cons_of_kept ((only key).mpr rfl), find?_cons, find?_cons, if_pos rfl, if_pos rfl]
        rfl
      · rw [find?_cons, if_neg same, ← induction]
        cases kept : name? key with
        | none => rw [rekey_cons_of_dropped kept]
        | some other =>
            have different : other ≠ name := fun equal => same ((only key).mp (by rw [kept, equal]))
            rw [rekey_cons_of_kept kept, find?_cons, if_neg different]

/-- A name that no key is given leads to nothing. -/
theorem find?_rekey_eq_none {name? : String → Option String} {name : String}
    (unused : ∀ key, name? key ≠ some name) (change : String → α → β)
    (members : List (String × α)) : find? (rekey name? change members) name = none := by
  rw [find?_eq_none_iff, keys_rekey, List.mem_filterMap]
  rintro ⟨key, _, kept⟩
  exact unused key kept

/-- Names that are told apart stay distinct. -/
theorem nodup_keys_rekey {name? : String → Option String}
    (apart : ∀ key other name, name? key = some name → name? other = some name → key = other)
    (change : String → α → β) {members : List (String × α)} (distinct : (keys members).Nodup) :
    (keys (rekey name? change members)).Nodup := by
  rw [keys_rekey]
  exact distinct.filterMap fun key other name kept otherKept => apart key other name kept otherKept

end WireSchema.Members

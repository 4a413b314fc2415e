import Mathlib.Data.List.Nodup
import WireSchema.Members

/-! # Writing many members

The interface of ordered members towards proofs: what is found where, what the names are, and what
writing a whole list of entries does. Writing fresh names one after the other appends them
(`insertAll_of_fresh`), so that a list without repeated names is its own `ofList`. Of a name that
repeats, the last entry is found (`find?_ofList`), at the place of the first (`keys_ofList`). -/

namespace WireSchema.Members

variable {α β : Type}

/-! ## (1) Names and entries -/

@[simp] theorem keys_nil : keys ([] : List (String × α)) = [] := rfl

@[simp] theorem keys_cons (member : String × α) (rest : List (String × α)) :
    keys (member :: rest) = member.1 :: keys rest := rfl

/-- The keys of two lists of members stand one behind the other. -/
@[simp] theorem keys_append (left right : List (String × α)) :
    keys (left ++ right) = keys left ++ keys right := List.map_append

/-- The name of a member is one of the names. -/
theorem mem_keys_of_mem {members : List (String × α)} {name : String} {entry : α}
    (held : (name, entry) ∈ members) : name ∈ keys members :=
  List.mem_map_of_mem (f := Prod.fst) held

/-- Nothing is found under a name exactly when it is none of the names. -/
theorem find?_eq_none_iff (members : List (String × α)) (name : String) :
    find? members name = none ↔ name ∉ keys members := by
  rw [← contains_iff, contains]
  cases find? members name <;> simp

/-- What is found is there. -/
theorem mem_of_find? {members : List (String × α)} {name : String} {entry : α}
    (found : find? members name = some entry) : (name, entry) ∈ members := by
  induction members with
  | nil => simp at found
  | cons member rest induction =>
      obtain ⟨key, old⟩ := member
      by_cases same : key = name
      · simp [find?_cons, same] at found
        simp [same, found]
      · rw [find?_cons, if_neg same] at found
        exact List.mem_cons_of_mem _ (induction found)

/-- The name under which something is found is one of the names. -/
theorem mem_keys_of_find? {members : List (String × α)} {name : String} {entry : α}
    (found : find? members name = some entry) : name ∈ keys members :=
  mem_keys_of_mem (mem_of_find? found)

/-- Where no name is repeated, each member is the one that its name leads to. -/
theorem find?_of_mem {members : List (String × α)} (distinct : (keys members).Nodup)
    {name : String} {entry : α} (held : (name, entry) ∈ members) :
    find? members name = some entry := by
  induction members with
  | nil => simp at held
  | cons member rest induction =>
      obtain ⟨key, old⟩ := member
      rw [keys_cons, List.nodup_cons] at distinct
      rcases List.mem_cons.mp held with first | later
      · cases first
        simp [find?_cons]
      · have different : key ≠ name := by
          rintro rfl
          exact distinct.1 (mem_keys_of_mem later)
        rw [find?_cons, if_neg different]
        exact induction distinct.2 later

/-- A name is looked for on the left first. -/
theorem find?_append (left right : List (String × α)) (name : String) :
    find? (left ++ right) name = (find? left name).or (find? right name) := by
  induction left with
  | nil => simp
  | cons member rest induction =>
      obtain ⟨key, entry⟩ := member
      by_cases same : key = name <;> simp [find?_cons, same, induction]

/-- A name that is not on the left is looked for on the right. -/
theorem find?_append_of_notMem {left : List (String × α)} (right : List (String × α))
    {name : String} (absent : name ∉ keys left) :
    find? (left ++ right) name = find? right name := by
  rw [find?_append, (find?_eq_none_iff left name).mpr absent, Option.none_or]

/-! ## (2) Entries under the same names -/

/-- Members with other entries, which may depend on the name. -/
def mapValues (change : String → α → β) (members : List (String × α)) : List (String × β) :=
  members.map fun member => (member.1, change member.1 member.2)

@[simp] theorem mapValues_nil (change : String → α → β) : mapValues change [] = [] := rfl

@[simp] theorem mapValues_cons (change : String → α → β) (member : String × α)
    (rest : List (String × α)) :
    mapValues change (member :: rest) =
      (member.1, change member.1 member.2) :: mapValues change rest := rfl

/-- Values are changed in two lists of members alike. -/
@[simp] theorem mapValues_append (change : String → α → β) (left right : List (String × α)) :
    mapValues change (left ++ right) = mapValues change left ++ mapValues change right :=
  List.map_append

/-- Changing values leaves the keys as they are. -/
@[simp] theorem keys_mapValues (change : String → α → β) (members : List (String × α)) :
    keys (mapValues change members) = keys members := by
  simp [keys, mapValues, Function.comp_def]

/-- Changing values twice is changing them once by both changes. -/
@[simp] theorem mapValues_mapValues {γ : Type} (first : String → α → β) (second : String → β → γ)
    (members : List (String × α)) :
    mapValues second (mapValues first members) =
      mapValues (fun name entry => second name (first name entry)) members :=
  List.map_map

/-- Members are left as they are when their entries are changed into themselves. -/
theorem mapValues_eq_self_iff {change : String → α → α} {members : List (String × α)} :
    mapValues change members = members ↔
      ∀ member ∈ members, change member.1 member.2 = member.2 := by
  have each :=
    @List.map_inj_left _ _ members (fun member => (member.1, change member.1 member.2)) id
  rw [List.map_id] at each
  rw [mapValues, each]
  exact forall₂_congr fun member _ => ⟨congrArg Prod.snd, congrArg (Prod.mk member.1)⟩

/-- Under a name stands the changed entry. -/
theorem find?_mapValues (change : String → α → β) (members : List (String × α)) (name : String) :
    find? (mapValues change members) name = (find? members name).map (change name) := by
  induction members with
  | nil => rfl
  | cons member rest induction =>
      obtain ⟨key, entry⟩ := member
      by_cases same : key = name
      · subst same
        simp [find?_cons]
      · simp [find?_cons, same, induction]

/-- Entries change alike before and after they are written. -/
theorem insert_mapValues (change : String → α → β) (members : List (String × α)) (name : String)
    (entry : α) :
    insert (mapValues change members) name (change name entry) =
      mapValues change (insert members name entry) := by
  induction members with
  | nil => rfl
  | cons member rest induction =>
      obtain ⟨key, old⟩ := member
      by_cases same : key = name
      · subst same
        simp [insert]
      · simp [insert, same, induction]

/-! ## (3) Lists of entries -/

/-- Members after the given entries were written to them one after the other. -/
def insertAll (members entries : List (String × α)) : List (String × α) :=
  entries.foldl (fun members entry => insert members entry.1 entry.2) members

@[simp] theorem insertAll_nil (members : List (String × α)) : insertAll members [] = members := rfl

@[simp] theorem insertAll_cons (members : List (String × α)) (entry : String × α)
    (entries : List (String × α)) :
    insertAll members (entry :: entries) =
      insertAll (insert members entry.1 entry.2) entries := rfl

/-- Inserting a longer list is inserting its front and then its back. -/
theorem insertAll_append (members first second : List (String × α)) :
    insertAll members (first ++ second) = insertAll (insertAll members first) second :=
  List.foldl_append

/-- Members are made from a list by inserting its entries into no members. -/
theorem ofList_eq_insertAll (entries : List (String × α)) : ofList entries = insertAll [] entries :=
  rfl

/-- A fresh name is added at the end. -/
theorem insert_of_fresh {members : List (String × α)} {name : String} (entry : α)
    (fresh : name ∉ keys members) : insert members name entry = members ++ [(name, entry)] := by
  induction members with
  | nil => rfl
  | cons member rest induction =>
      obtain ⟨key, old⟩ := member
      rw [keys_cons, List.mem_cons, not_or] at fresh
      simp [insert, Ne.symm fresh.1, induction fresh.2]

/-- Members in front stay as they are when none of their names is written. -/
theorem insert_append_of_notMem {front : List (String × α)} (members : List (String × α))
    {name : String} (entry : α) (absent : name ∉ keys front) :
    insert (front ++ members) name entry = front ++ insert members name entry := by
  induction front with
  | nil => rfl
  | cons member rest induction =>
      obtain ⟨key, old⟩ := member
      rw [keys_cons, List.mem_cons, not_or] at absent
      simp [insert, Ne.symm absent.1, induction absent.2]

/-- Members in front stay as they are when none of their names is among the entries written. -/
theorem insertAll_append_of_notMem {front : List (String × α)} (members entries : List (String × α))
    (absent : ∀ name ∈ keys entries, name ∉ keys front) :
    insertAll (front ++ members) entries = front ++ insertAll members entries := by
  induction entries generalizing members with
  | nil => rfl
  | cons entry rest induction =>
      rw [insertAll_cons, insertAll_cons,
        insert_append_of_notMem members entry.2 (absent entry.1 (by simp))]
      exact induction _ fun name held => absent name (by simp [held])

/-- Entries under fresh names, none of them repeated, are added at the end. -/
theorem insertAll_of_fresh {members entries : List (String × α)}
    (distinct : (keys entries).Nodup) (fresh : ∀ name ∈ keys entries, name ∉ keys members) :
    insertAll members entries = members ++ entries := by
  induction entries generalizing members with
  | nil => simp
  | cons entry rest induction =>
      rw [keys_cons, List.nodup_cons] at distinct
      rw [insertAll_cons, insert_of_fresh _ (fresh entry.1 (by simp)), induction distinct.2]
      · simp
      · -- the later names are fresh still, since the entry that was written bears none of them
        intro name held
        have different : name ≠ entry.1 := by
          rintro rfl
          exact distinct.1 held
        simp [fresh name (by simp [held]), different]

/-- Entries of which no name is repeated are the members they make. -/
theorem ofList_of_nodup {entries : List (String × α)} (distinct : (keys entries).Nodup) :
    ofList entries = entries := by
  rw [ofList_eq_insertAll, insertAll_of_fresh distinct (by simp)]
  rfl

/-- Entries in front stay as they are when no name among them is repeated or comes again. -/
theorem ofList_append {front : List (String × α)} (entries : List (String × α))
    (distinct : (keys front).Nodup) (absent : ∀ name ∈ keys entries, name ∉ keys front) :
    ofList (front ++ entries) = front ++ ofList entries := by
  -- the front is written first, which leaves it as it is, and then the entries behind it
  rw [ofList_eq_insertAll, insertAll_append, ← ofList_eq_insertAll, ofList_of_nodup distinct,
    ofList_eq_insertAll]
  simpa using insertAll_append_of_notMem [] entries absent

/-- Inserting an entry adds its name to the keys. -/
theorem mem_keys_insert (members : List (String × α)) (name other : String) (entry : α) :
    other ∈ keys (insert members name entry) ↔ other = name ∨ other ∈ keys members := by
  rw [keys_insert]
  split
  · next present =>
      rw [contains_iff] at present
      constructor
      · exact Or.inr
      · rintro (rfl | held)
        exacts [present, held]
  · simp [or_comm]

/-- Inserting entries adds their names to the keys. -/
theorem mem_keys_insertAll (members entries : List (String × α)) (name : String) :
    name ∈ keys (insertAll members entries) ↔ name ∈ keys members ∨ name ∈ keys entries := by
  induction entries generalizing members with
  | nil => simp
  | cons entry rest induction =>
      rw [insertAll_cons, induction, mem_keys_insert, keys_cons, List.mem_cons]
      tauto

/-- Writing entries brings in their names and no others. -/
theorem mem_keys_ofList (entries : List (String × α)) (name : String) :
    name ∈ keys (ofList entries) ↔ name ∈ keys entries := by
  simp [ofList_eq_insertAll, mem_keys_insertAll]

/-- Inserting an entry keeps keys distinct. -/
theorem nodup_keys_insert {members : List (String × α)} (distinct : (keys members).Nodup)
    (name : String) (entry : α) : (keys (insert members name entry)).Nodup := by
  rw [keys_insert]
  split
  · exact distinct
  · next absent =>
      -- the name is added at the end and differs from all before it
      rw [contains_iff] at absent
      exact List.nodup_append.mpr ⟨distinct, by simp, by
        intro left heldLeft right heldRight same
        simp only [List.mem_singleton] at heldRight
        exact absent (heldRight ▸ same ▸ heldLeft)⟩

/-- Inserting entries keeps keys distinct. -/
theorem nodup_keys_insertAll {members : List (String × α)} (distinct : (keys members).Nodup)
    (entries : List (String × α)) : (keys (insertAll members entries)).Nodup := by
  induction entries generalizing members with
  | nil => exact distinct
  | cons entry rest induction => exact induction (nodup_keys_insert distinct _ _)

/-- Members that were written one after the other never hold a name twice. -/
theorem nodup_keys_ofList (entries : List (String × α)) : (keys (ofList entries)).Nodup := by
  have none : (keys ([] : List (String × α))).Nodup := List.nodup_nil
  exact nodup_keys_insertAll none entries

/-- Values can be changed before or after the entries are inserted. -/
theorem insertAll_mapValues (change : String → α → β) (members entries : List (String × α)) :
    insertAll (mapValues change members) (mapValues change entries) =
      mapValues change (insertAll members entries) := by
  induction entries generalizing members with
  | nil => rfl
  | cons entry rest induction =>
      rw [mapValues_cons, insertAll_cons, insertAll_cons, insert_mapValues, induction]

/-- Entries change alike before and after the members are made. -/
theorem ofList_mapValues (change : String → α → β) (entries : List (String × α)) :
    ofList (mapValues change entries) = mapValues change (ofList entries) :=
  insertAll_mapValues change [] entries

/-! ## (4) Repeated names -/

/-- Of all entries inserted under a name, the last one is found. -/
theorem find?_insertAll (members entries : List (String × α)) (name : String) :
    find? (insertAll members entries) name =
      (find? entries.reverse name).or (find? members name) := by
  induction entries generalizing members with
  | nil => rfl
  | cons entry rest induction =>
      obtain ⟨key, value⟩ := entry
      rw [insertAll_cons, induction, List.reverse_cons, find?_append, Option.or_assoc, find?_cons]
      by_cases same : key = name
      · subst same
        rw [find?_insert_self, if_pos rfl]
        rfl
      · rw [find?_insert_of_ne _ _ (Ne.symm same), if_neg same]
        rfl

/-- Of all entries with one name the last one counts. -/
theorem find?_ofList (entries : List (String × α)) (name : String) :
    find? (ofList entries) name = find? entries.reverse name := by
  rw [ofList_eq_insertAll, find?_insertAll, find?_nil, Option.or_none]

/-- What is kept of entries has been among them. -/
theorem mem_of_mem_ofList {entries : List (String × α)} {entry : String × α}
    (held : entry ∈ ofList entries) : entry ∈ entries := by
  have found := find?_of_mem (nodup_keys_ofList entries) held
  rw [find?_ofList] at found
  exact List.mem_reverse.mp (mem_of_find? found)

/-- Inserting entries puts each new name behind the keys, at the place of its first entry. -/
theorem keys_insertAll (members entries : List (String × α)) :
    keys (insertAll members entries) =
      keys members ++ ((keys entries).filter (· ∉ keys members)).eraseDups := by
  induction entries generalizing members with
  | nil => simp
  | cons entry rest induction =>
      rw [insertAll_cons, induction, keys_insert, keys_cons]
      by_cases present : entry.1 ∈ keys members
      · rw [if_pos ((contains_iff _ _).mpr present),
          List.filter_cons_of_neg (by simpa using present)]
      · have absent : ¬contains members entry.1 = true := (contains_iff _ _).not.mpr present
        rw [if_neg absent, List.filter_cons_of_pos (by simpa using present), List.eraseDups_cons,
          List.filter_filter, List.append_assoc, List.singleton_append]
        -- the name is held from here on, so that its later entries add nothing
        congr 3
        refine List.filter_congr fun name _ => ?_
        by_cases same : name = entry.1 <;> simp [same, present]

/-- The names stand in the order of their first entries. -/
theorem keys_ofList (entries : List (String × α)) :
    keys (ofList entries) = (keys entries).eraseDups := by
  rw [ofList_eq_insertAll, keys_insertAll]
  simp

end WireSchema.Members

import WireSchema.Proofs.Members.Insertion

/-! # Translating members

What structs and key maps do to the members of an object, without regard to errors. A **rule** per
declared member says under which name it is read, under which name it is written and what becomes
of its value; the other members keep their names, unless one of them would be written under the
name of a declared one. Translations that fit together compose (`translate?_translate?`), and the
outcome is told by what is found under each name. -/

namespace WireSchema.Members

variable {ι α β γ : Type}

/-- **A rule** for one declared member. -/
structure Rule (α β : Type) where
  /-- The name under which the member is read. -/
  read : String
  /-- The name under which the member is written. -/
  write : String
  /-- Whether the member may be absent. -/
  isOptional : Bool
  /-- What becomes of its value. -/
  part : α → Option β

/-- The names that rules read. -/
def readNames (rules : List (Rule α β)) : List String := rules.map Rule.read

/-- The names that rules write. -/
def writeNames (rules : List (Rule α β)) : List String := rules.map Rule.write

/-- The declared members by their rules, in the order of the rules. -/
def declared? (members : List (String × α)) : List (Rule α β) → Option (List (String × β))
  | [] => some []
  | rule :: rest =>
      match find? members rule.read with
      | some value => do
          let output ← rule.part value
          let outputs ← declared? members rest
          return (rule.write, output) :: outputs
      | none => if rule.isOptional then declared? members rest else none

/-- The members that no rule reads, in their own order; none may bear a name that a rule writes. -/
def undeclared? (rules : List (Rule α β)) (part : α → Option β) :
    List (String × α) → Option (List (String × β))
  | [] => some []
  | (key, value) :: rest =>
      if key ∈ readNames rules then undeclared? rules part rest
      else if key ∈ writeNames rules then none
      else do
        let output ← part value
        let outputs ← undeclared? rules part rest
        return (key, output) :: outputs

/-- The undeclared members where they are kept; else they are dropped. -/
def others? (rules : List (Rule α β)) (open? : Option (α → Option β))
    (members : List (String × α)) : Option (List (String × β)) :=
  match open? with
  | some part => undeclared? rules part members
  | none => some []

/-- **The translation** of members: the declared ones and then the others. -/
def translate? (rules : List (Rule α β)) (open? : Option (α → Option β))
    (members : List (String × α)) : Option (List (String × β)) := do
  let declared ← declared? members rules
  let others ← others? rules open? members
  return declared ++ others

/-! ## (1) Declared members -/

/-- A rule is followed in one of two ways: its member is there, or it is optional and left out. -/
theorem declared?_cons_eq_some_iff {members : List (String × α)} {rule : Rule α β}
    {rest : List (Rule α β)} {outputs : List (String × β)} :
    declared? members (rule :: rest) = some outputs ↔
      (∃ value output others, find? members rule.read = some value ∧
        rule.part value = some output ∧ declared? members rest = some others ∧
        (rule.write, output) :: others = outputs) ∨
      (find? members rule.read = none ∧ rule.isOptional = true ∧
        declared? members rest = some outputs) := by
  rw [declared?]
  cases find? members rule.read with
  | none => simp
  | some value => simp [Option.bind_eq_some_iff]

/-- A declared member comes through: it is present unless it is optional, and its value has an
output. -/
def Rule.Admits (rule : Rule α β) (members : List (String × α)) : Prop :=
  match find? members rule.read with
  | some value => (rule.part value).isSome
  | none => rule.isOptional = true

/-- Where a rule admits the members, it can put over the value it reads. -/
theorem Rule.isSome_part_of_admits {rule : Rule α β} {members : List (String × α)} {value : α}
    (admits : rule.Admits members) (found : find? members rule.read = some value) :
    (rule.part value).isSome := by
  rw [Rule.Admits, found] at admits
  exact admits

/-- A rule admits members when its name is there unless it is optional, and what is found there
becomes something. -/
theorem Rule.admits_iff (rule : Rule α β) (members : List (String × α)) :
    rule.Admits members ↔ (rule.isOptional = false → rule.read ∈ keys members) ∧
      ∀ value, find? members rule.read = some value → (rule.part value).isSome := by
  rw [Rule.Admits]
  cases found : find? members rule.read with
  | some value => simp [mem_keys_of_find? found]
  | none =>
      have absent : rule.read ∉ keys members := (find?_eq_none_iff _ _).mp found
      simp [absent]

/-- Each output of the declared members comes from what is found under the name that its rule
reads. -/
theorem mem_declared? {members : List (String × α)} {rules : List (Rule α β)}
    {outputs : List (String × β)} (translated : declared? members rules = some outputs)
    {output : String × β} (held : output ∈ outputs) :
    ∃ rule ∈ rules, ∃ value, find? members rule.read = some value ∧
      rule.part value = some output.2 ∧ rule.write = output.1 := by
  induction rules generalizing outputs with
  | nil =>
      cases translated
      simp at held
  | cons rule rest induction =>
      rw [declared?_cons_eq_some_iff] at translated
      rcases translated with
        ⟨value, result, others, found, becomes, later, rfl⟩ | ⟨_, _, later⟩
      · rcases List.mem_cons.mp held with rfl | behind
        · exact ⟨rule, List.mem_cons_self, value, found, becomes, rfl⟩
        · obtain ⟨other, otherHeld, origin⟩ := induction later behind
          exact ⟨other, List.mem_cons_of_mem _ otherHeld, origin⟩
      · obtain ⟨other, otherHeld, origin⟩ := induction later held
        exact ⟨other, List.mem_cons_of_mem _ otherHeld, origin⟩

/-- The declared members come through exactly when each of them does. -/
theorem declared?_isSome_iff (members : List (String × α)) (rules : List (Rule α β)) :
    (declared? members rules).isSome ↔ ∀ rule ∈ rules, rule.Admits members := by
  induction rules with
  | nil => simp [declared?]
  | cons rule rest induction =>
      rw [List.forall_mem_cons, ← induction, declared?, Rule.Admits]
      cases find? members rule.read with
      | none => cases rule.isOptional <;> simp
      | some value =>
          cases declared? members rest <;> cases computed : rule.part value <;> simp [computed]

/-- A name is written exactly when a rule writes it and the name that the rule reads is there. -/
theorem mem_keys_declared? {members : List (String × α)} {rules : List (Rule α β)}
    {outputs : List (String × β)} (translated : declared? members rules = some outputs)
    (name : String) :
    name ∈ keys outputs ↔ ∃ rule ∈ rules, rule.write = name ∧ rule.read ∈ keys members := by
  induction rules generalizing outputs with
  | nil =>
      cases translated
      simp
  | cons rule rest induction =>
      rw [declared?_cons_eq_some_iff] at translated
      rcases translated with
        ⟨value, output, others, found, _, later, rfl⟩ | ⟨absent, _, later⟩
      · simp [induction later, mem_keys_of_find? found, eq_comm]
      · simp [induction later, (find?_eq_none_iff _ _).mp absent]

/-- The declared outputs stand under names that some rule writes. -/
theorem mem_writeNames_of_declared? {members : List (String × α)} {rules : List (Rule α β)}
    {outputs : List (String × β)} (translated : declared? members rules = some outputs)
    {name : String} (held : name ∈ keys outputs) : name ∈ writeNames rules := by
  obtain ⟨rule, ruleHeld, same, _⟩ := (mem_keys_declared? translated name).mp held
  exact List.mem_map.mpr ⟨rule, ruleHeld, same⟩

/-- Rules that write different names give outputs with distinct keys. -/
theorem nodup_keys_declared? {members : List (String × α)} {rules : List (Rule α β)}
    {outputs : List (String × β)} (distinct : (writeNames rules).Nodup)
    (translated : declared? members rules = some outputs) : (keys outputs).Nodup := by
  induction rules generalizing outputs with
  | nil =>
      cases translated
      simp
  | cons rule rest induction =>
      rw [writeNames, List.map_cons, List.nodup_cons] at distinct
      rw [declared?_cons_eq_some_iff] at translated
      rcases translated with
        ⟨value, output, others, _, _, later, rfl⟩ | ⟨_, _, later⟩
      · rw [keys_cons, List.nodup_cons]
        exact ⟨fun held => distinct.1 (mem_writeNames_of_declared? later held),
          induction distinct.2 later⟩
      · exact induction distinct.2 later

/-- Under the name that a rule writes stands what became of the value under the name it reads. -/
theorem find?_declared? {members : List (String × α)} {rules : List (Rule α β)}
    {outputs : List (String × β)} (distinct : (writeNames rules).Nodup)
    (translated : declared? members rules = some outputs) {rule : Rule α β} (held : rule ∈ rules) :
    find? outputs rule.write = (find? members rule.read).bind rule.part := by
  induction rules generalizing outputs with
  | nil => simp at held
  | cons first rest induction =>
      rw [writeNames, List.map_cons, List.nodup_cons] at distinct
      rw [declared?_cons_eq_some_iff] at translated
      rcases translated with
        ⟨value, output, others, found, computed, later, rfl⟩ | ⟨absent, _, later⟩
      · rcases List.mem_cons.mp held with rfl | heldLater
        · rw [found, Option.bind_some, computed, find?_cons, if_pos rfl]
        · have different : first.write ≠ rule.write := by
            intro same
            exact distinct.1 (List.mem_map.mpr ⟨rule, heldLater, same.symm⟩)
          rw [find?_cons, if_neg different]
          exact induction distinct.2 later heldLater
      · -- the first rule is left out, and no later one writes its name
        rcases List.mem_cons.mp held with rfl | heldLater
        · rw [absent, Option.bind_none, find?_eq_none_iff]
          intro written
          exact distinct.1 (mem_writeNames_of_declared? later written)
        · exact induction distinct.2 later heldLater

/-- Writing under other names changes the names of the outputs and nothing else. -/
theorem declared?_map_write (members : List (String × α)) (rules : List (Rule α β))
    (rename : String → String) :
    declared? members (rules.map fun rule => { rule with write := rename rule.write }) =
      (declared? members rules).map (List.map fun output => (rename output.1, output.2)) := by
  induction rules with
  | nil => rfl
  | cons rule rest induction =>
      rw [List.map_cons, declared?, declared?, induction]
      cases find? members rule.read with
      | none => cases rule.isOptional <;> simp
      | some value =>
          cases computed : rule.part value <;> cases declared? members rest <;> simp [computed]

/-! ## (2) Undeclared members -/

/-- The first of the members is read by a rule and passed over, or it is kept under its name. -/
theorem undeclared?_cons_eq_some_iff {rules : List (Rule α β)} {part : α → Option β}
    {member : String × α} {rest : List (String × α)} {outputs : List (String × β)} :
    undeclared? rules part (member :: rest) = some outputs ↔
      (member.1 ∈ readNames rules ∧ undeclared? rules part rest = some outputs) ∨
      (member.1 ∉ readNames rules ∧ member.1 ∉ writeNames rules ∧ ∃ output others,
        part member.2 = some output ∧ undeclared? rules part rest = some others ∧
        (member.1, output) :: others = outputs) := by
  obtain ⟨key, value⟩ := member
  rw [undeclared?]
  by_cases read : key ∈ readNames rules
  · simp [read]
  · by_cases written : key ∈ writeNames rules
    · simp [read, written]
    · simp [read, written, Option.bind_eq_some_iff]

/-- The undeclared members come through exactly when each of them bears no name that a rule writes
and has an output. -/
theorem undeclared?_isSome_iff (rules : List (Rule α β)) (part : α → Option β)
    (members : List (String × α)) :
    (undeclared? rules part members).isSome ↔ ∀ member ∈ members, member.1 ∉ readNames rules →
      member.1 ∉ writeNames rules ∧ (part member.2).isSome := by
  induction members with
  | nil => simp [undeclared?]
  | cons member rest induction =>
      obtain ⟨key, value⟩ := member
      rw [List.forall_mem_cons, ← induction, undeclared?]
      by_cases read : key ∈ readNames rules
      · simp [read]
      · by_cases written : key ∈ writeNames rules
        · simp [read, written]
        · cases undeclared? rules part rest <;> cases part value <;> simp [read, written]

/-- Each output of the undeclared members comes from a member of its name. -/
theorem mem_undeclared? {rules : List (Rule α β)} {part : α → Option β}
    {members : List (String × α)} {outputs : List (String × β)}
    (translated : undeclared? rules part members = some outputs) {output : String × β}
    (held : output ∈ outputs) :
    ∃ value, (output.1, value) ∈ members ∧ output.1 ∉ readNames rules ∧
      part value = some output.2 := by
  induction members generalizing outputs with
  | nil =>
      cases translated
      simp at held
  | cons member rest induction =>
      rw [undeclared?_cons_eq_some_iff] at translated
      rcases translated with
        ⟨_, later⟩ | ⟨unread, _, result, others, becomes, later, rfl⟩
      · obtain ⟨value, memberHeld, origin⟩ := induction later held
        exact ⟨value, List.mem_cons_of_mem _ memberHeld, origin⟩
      · rcases List.mem_cons.mp held with rfl | behind
        · exact ⟨member.2, List.mem_cons_self, unread, becomes⟩
        · obtain ⟨value, memberHeld, origin⟩ := induction later behind
          exact ⟨value, List.mem_cons_of_mem _ memberHeld, origin⟩

/-- The names of the undeclared members are kept, in their order. -/
theorem keys_undeclared? {rules : List (Rule α β)} {part : α → Option β}
    {members : List (String × α)} {outputs : List (String × β)}
    (translated : undeclared? rules part members = some outputs) :
    keys outputs = (keys members).filter (· ∉ readNames rules) := by
  induction members generalizing outputs with
  | nil =>
      cases translated
      rfl
  | cons member rest induction =>
      rw [undeclared?_cons_eq_some_iff] at translated
      rcases translated with
        ⟨read, later⟩ | ⟨read, _, output, others, _, later, rfl⟩
      · simp [induction later, read]
      · simp [induction later, read]

/-- No undeclared output stands under a name that some rule writes. -/
theorem notMem_writeNames_of_undeclared? {rules : List (Rule α β)} {part : α → Option β}
    {members : List (String × α)} {outputs : List (String × β)}
    (translated : undeclared? rules part members = some outputs) {name : String}
    (held : name ∈ keys outputs) : name ∉ writeNames rules := by
  induction members generalizing outputs with
  | nil =>
      cases translated
      simp at held
  | cons member rest induction =>
      rw [undeclared?_cons_eq_some_iff] at translated
      rcases translated with
        ⟨_, later⟩ | ⟨_, written, output, others, _, later, rfl⟩
      · exact induction later held
      · rcases List.mem_cons.mp held with rfl | heldLater
        exacts [written, induction later heldLater]

/-- Under the name of an undeclared member stands what became of its value. -/
theorem find?_undeclared? {rules : List (Rule α β)} {part : α → Option β}
    {members : List (String × α)} {outputs : List (String × β)}
    (translated : undeclared? rules part members = some outputs) {name : String}
    (unread : name ∉ readNames rules) :
    find? outputs name = (find? members name).bind part := by
  induction members generalizing outputs with
  | nil =>
      cases translated
      rfl
  | cons member rest induction =>
      obtain ⟨key, value⟩ := member
      rw [undeclared?_cons_eq_some_iff] at translated
      rcases translated with
        ⟨read, later⟩ | ⟨_, _, output, others, computed, later, rfl⟩
      · have different : key ≠ name := by
          rintro rfl
          exact unread read
        rw [find?_cons, if_neg different]
        exact induction later
      · by_cases same : key = name
        · simp [find?_cons, same, computed]
        · rw [find?_cons, if_neg same, find?_cons, if_neg same]
          exact induction later

/-- Members that rules read are passed over. -/
theorem undeclared?_append_of_read {rules : List (Rule α β)} (part : α → Option β)
    {front : List (String × α)} (members : List (String × α))
    (read : ∀ name ∈ keys front, name ∈ readNames rules) :
    undeclared? rules part (front ++ members) = undeclared? rules part members := by
  induction front with
  | nil => rfl
  | cons member rest induction =>
      rw [List.cons_append, undeclared?, if_pos (read member.1 (by simp))]
      exact induction fun name held => read name (by simp [held])

/-- Members that no rule knows are kept as they are. -/
theorem undeclared?_some_of_apart {rules : List (Rule α α)} {members : List (String × α)}
    (unread : ∀ name ∈ keys members, name ∉ readNames rules)
    (unwritten : ∀ name ∈ keys members, name ∉ writeNames rules) :
    undeclared? rules some members = some members := by
  induction members with
  | nil => rfl
  | cons member rest induction =>
      rw [undeclared?, if_neg (unread member.1 (by simp)), if_neg (unwritten member.1 (by simp)),
        induction (fun name held => unread name (by simp [held]))
          fun name held => unwritten name (by simp [held])]
      rfl

/-- Undeclared members that are kept as they are are those that no rule reads. -/
theorem eq_filter_of_undeclared? {rules : List (Rule α α)} {members outputs : List (String × α)}
    (kept : undeclared? rules some members = some outputs) :
    outputs = members.filter fun member => member.1 ∉ readNames rules := by
  induction members generalizing outputs with
  | nil =>
      cases kept
      rfl
  | cons member rest induction =>
      rw [undeclared?_cons_eq_some_iff] at kept
      rcases kept with
        ⟨read, later⟩ | ⟨unread, _, output, others, ⟨⟩, later, rfl⟩
      · simp [read, induction later]
      · simp [unread, induction later]

/-! ## (3) All members -/

/-- Members are put over exactly if the declared and the other ones are, the declared ones in front.
-/
theorem translate?_eq_some_iff {rules : List (Rule α β)} {open? : Option (α → Option β)}
    {members : List (String × α)} {outputs : List (String × β)} :
    translate? rules open? members = some outputs ↔
      ∃ declared others, declared? members rules = some declared ∧
        others? rules open? members = some others ∧ declared ++ others = outputs := by
  simp [translate?, Option.bind_eq_some_iff]

/-- **Members translate** exactly when each declared one comes through and, if the others are kept,
each of these comes through under a name that no rule writes. -/
theorem translate?_isSome_iff (rules : List (Rule α β)) (open? : Option (α → Option β))
    (members : List (String × α)) :
    (translate? rules open? members).isSome ↔
      (∀ rule ∈ rules, rule.Admits members) ∧
      ∀ part ∈ open?, ∀ member ∈ members, member.1 ∉ readNames rules →
        member.1 ∉ writeNames rules ∧ (part member.2).isSome := by
  rw [← declared?_isSome_iff, translate?]
  cases open? with
  | none => cases declared? members rules <;> simp [others?]
  | some part =>
      simp only [Option.mem_def, Option.some.injEq, forall_eq']
      rw [← undeclared?_isSome_iff, others?]
      cases declared? members rules <;> cases undeclared? rules part members <;> simp

/-- Every rule of a translation that succeeds admits the members. -/
theorem admits_of_translate? {rules : List (Rule α β)} {open? : Option (α → Option β)}
    {members : List (String × α)} {outputs : List (String × β)}
    (translated : translate? rules open? members = some outputs) {rule : Rule α β}
    (held : rule ∈ rules) : rule.Admits members :=
  ((translate?_isSome_iff rules open? members).mp (by rw [translated]; rfl)).1 rule held

/-- Where undeclared members are kept, none of them is in the way of a declared one, and each
becomes something. -/
theorem undeclared_of_translate? {rules : List (Rule α β)} {open? : Option (α → Option β)}
    {members : List (String × α)} {outputs : List (String × β)}
    (translated : translate? rules open? members = some outputs) {part : α → Option β}
    (kept : part ∈ open?) {member : String × α} (held : member ∈ members)
    (unread : member.1 ∉ readNames rules) :
    member.1 ∉ writeNames rules ∧ (part member.2).isSome :=
  ((translate?_isSome_iff rules open? members).mp (by rw [translated]; rfl)).2 part kept member held
    unread

/-- Each output of a translation comes from a declared member or from an undeclared one. -/
theorem mem_translate? {rules : List (Rule α β)} {open? : Option (α → Option β)}
    {members : List (String × α)} {outputs : List (String × β)}
    (translated : translate? rules open? members = some outputs) {output : String × β}
    (held : output ∈ outputs) :
    (∃ rule ∈ rules, ∃ value, find? members rule.read = some value ∧
      rule.part value = some output.2 ∧ rule.write = output.1) ∨
    ∃ part ∈ open?, ∃ value, (output.1, value) ∈ members ∧ output.1 ∉ readNames rules ∧
      part value = some output.2 := by
  rw [translate?_eq_some_iff] at translated
  obtain ⟨declared, others, first, second, rfl⟩ := translated
  rcases List.mem_append.mp held with here | behind
  · exact Or.inl (mem_declared? first here)
  · cases open? with
    | none =>
        cases second
        simp at behind
    | some part => exact Or.inr ⟨part, rfl, mem_undeclared? second behind⟩

/-- A name in a translation that no rule writes is the name of a member. -/
theorem mem_keys_of_translate? {rules : List (Rule α β)} {open? : Option (α → Option β)}
    {members : List (String × α)} {outputs : List (String × β)}
    (translated : translate? rules open? members = some outputs) {name : String}
    (held : name ∈ keys outputs) (unwritten : name ∉ writeNames rules) : name ∈ keys members := by
  obtain ⟨⟨_, output⟩, outputHeld, rfl⟩ := List.mem_map.mp held
  rcases mem_translate? translated outputHeld with
    ⟨rule, ruleHeld, _, _, _, written⟩ | ⟨_, _, value, memberHeld, _, _⟩
  · exact absurd (written ▸ List.mem_map_of_mem ruleHeld) unwritten
  · exact mem_keys_of_mem memberHeld

/-- The other members keep clear of the names that rules write. -/
theorem notMem_writeNames_of_others? {rules : List (Rule α β)} {open? : Option (α → Option β)}
    {members : List (String × α)} {outputs : List (String × β)}
    (translated : others? rules open? members = some outputs) {name : String}
    (held : name ∈ keys outputs) : name ∉ writeNames rules := by
  cases open? with
  | none =>
      cases translated
      simp at held
  | some part => exact notMem_writeNames_of_undeclared? translated held

/-- Under a key that no rule reads stands what the open part makes of the member, if there is one.
-/
theorem find?_others? {rules : List (Rule α β)} {open? : Option (α → Option β)}
    {members : List (String × α)} {outputs : List (String × β)}
    (translated : others? rules open? members = some outputs) {name : String}
    (unread : name ∉ readNames rules) :
    find? outputs name = open?.bind fun part => (find? members name).bind part := by
  cases open? with
  | none =>
      cases translated
      rfl
  | some part => exact find?_undeclared? translated unread

/-- No name is written twice, where the names of the members and of the rules are not repeated. -/
theorem nodup_keys_translate? {rules : List (Rule α β)} {open? : Option (α → Option β)}
    {members : List (String × α)} {outputs : List (String × β)}
    (written : (writeNames rules).Nodup) (distinct : (keys members).Nodup)
    (translated : translate? rules open? members = some outputs) : (keys outputs).Nodup := by
  rw [translate?_eq_some_iff] at translated
  obtain ⟨declared, others, first, second, rfl⟩ := translated
  rw [keys_append]
  refine List.nodup_append.mpr ⟨nodup_keys_declared? written first, ?_, ?_⟩
  · cases open? with
    | none =>
        cases second
        simp
    | some part =>
        rw [keys_undeclared? second]
        exact distinct.filter _
  · -- the other members keep clear of the names that rules write
    rintro name left _ right rfl
    exact notMem_writeNames_of_others? second right (mem_writeNames_of_declared? first left)

/-- Under the name that a rule writes stands what became of the value under the name it reads. -/
theorem find?_translate?_write {rules : List (Rule α β)} {open? : Option (α → Option β)}
    {members : List (String × α)} {outputs : List (String × β)}
    (written : (writeNames rules).Nodup)
    (translated : translate? rules open? members = some outputs) {rule : Rule α β}
    (held : rule ∈ rules) :
    find? outputs rule.write = (find? members rule.read).bind rule.part := by
  rw [translate?_eq_some_iff] at translated
  obtain ⟨declared, others, first, second, rfl⟩ := translated
  have apart : find? others rule.write = none := by
    rw [find?_eq_none_iff]
    intro kept
    exact notMem_writeNames_of_others? second kept (List.mem_map_of_mem held)
  rw [find?_append, apart, Option.or_none, find?_declared? written first held]

/-- Under any other name stands what became of the undeclared member of that name. -/
theorem find?_translate?_other {rules : List (Rule α β)} {open? : Option (α → Option β)}
    {members : List (String × α)} {outputs : List (String × β)}
    (translated : translate? rules open? members = some outputs) {name : String}
    (unwritten : name ∉ writeNames rules) (unread : name ∉ readNames rules) :
    find? outputs name = open?.bind fun part => (find? members name).bind part := by
  rw [translate?_eq_some_iff] at translated
  obtain ⟨declared, others, first, second, rfl⟩ := translated
  rw [find?_append_of_notMem _ fun kept => unwritten (mem_writeNames_of_declared? first kept)]
  exact find?_others? second unread

/-! ## (4) Translations one after the other -/

/-- The rule that follows two rules, of which the second reads what the first has written. -/
def Rule.andThen (first : Rule α β) (second : Rule β γ) : Rule α γ :=
  ⟨first.read, second.write, first.isOptional, fun value => (first.part value).bind second.part⟩

/-- What two translations of the undeclared members make of a value; both have to keep them. -/
def openThen (first : Option (α → Option β)) (second : Option (β → Option γ)) :
    Option (α → Option γ) := do
  let early ← first
  let late ← second
  return fun value => (early value).bind late

section Composition

variable {items : List ι} {first : ι → Rule α β} {second : ι → Rule β γ}

variable (first second) in
/-- Where every value of the first rules becomes something, reading what they have written is
reading by both rules at once. -/
theorem declared?_andThen {members : List (String × α)} {middle : List (String × β)}
    (optional : ∀ item ∈ items, (second item).isOptional = (first item).isOptional)
    (reads : ∀ item ∈ items, find? middle (second item).read =
      (find? members (first item).read).bind (first item).part)
    (succeeds : ∀ item ∈ items, ∀ value, find? members (first item).read = some value →
      ((first item).part value).isSome) :
    declared? middle (items.map second) =
      declared? members (items.map fun item => (first item).andThen (second item)) := by
  induction items with
  | nil => rfl
  | cons item rest induction =>
      rw [List.forall_mem_cons] at optional reads succeeds
      have later := induction optional.2 reads.2 succeeds.2
      rw [List.map_cons, List.map_cons, declared?, declared?, reads.1, later, optional.1]
      cases found : find? members (first item).read with
      | none =>
          -- what is absent is absent from the middle, and the two rules are optional alike
          simp only [Rule.andThen, found, Option.bind_none]
          rfl
      | some value =>
          obtain ⟨output, computed⟩ := Option.isSome_iff_exists.mp (succeeds.1 value found)
          simp only [Rule.andThen, found, Option.bind_some, computed]

/-- The undeclared members of two steps, each reading what the other wrote, are those of the two
steps made into one. -/
theorem undeclared?_andThen {members : List (String × α)} {others : List (String × β)}
    {early : α → Option β} {late : β → Option γ}
    (fits : ∀ item ∈ items, (second item).read = (first item).write)
    (kept : undeclared? (items.map first) early members = some others) :
    undeclared? (items.map second) late others =
      undeclared? (items.map fun item => (first item).andThen (second item))
        (fun value => (early value).bind late) members := by
  have reads : readNames (items.map second) = writeNames (items.map first) := by
    simpa [readNames, writeNames] using fits
  have readsBoth : readNames (items.map fun item => (first item).andThen (second item)) =
      readNames (items.map first) := by
    simp [readNames, Rule.andThen]
  have writesBoth : writeNames (items.map fun item => (first item).andThen (second item)) =
      writeNames (items.map second) := by
    simp [writeNames, Rule.andThen]
  induction members generalizing others with
  | nil =>
      cases kept
      rfl
  | cons member rest induction =>
      obtain ⟨key, value⟩ := member
      rw [undeclared?_cons_eq_some_iff] at kept
      rcases kept with
        ⟨read, later⟩ | ⟨read, written, output, more, computed, later, rfl⟩
      · rw [induction later, undeclared?, readsBoth, if_pos read]
      · -- a key that was kept bears no name that is written in between, so that it is kept again
        rw [undeclared?, undeclared?, reads, readsBoth, writesBoth, if_neg read, if_neg written,
          induction later, computed]
        rfl

variable (first second) in
/-- **Translations compose**: what one has written is translated by the next one as by both rules
at once. The names in between must not be repeated. -/
theorem translate?_translate? {members : List (String × α)} {middle : List (String × β)}
    {early : Option (α → Option β)} {late : Option (β → Option γ)}
    (written : (writeNames (items.map first)).Nodup)
    (fits : ∀ item ∈ items, (second item).read = (first item).write)
    (optional : ∀ item ∈ items, (second item).isOptional = (first item).isOptional)
    (translated : translate? (items.map first) early members = some middle) :
    translate? (items.map second) late middle =
      translate? (items.map fun item => (first item).andThen (second item)) (openThen early late)
        members := by
  have reads : readNames (items.map second) = writeNames (items.map first) := by
    simpa [readNames, writeNames] using fits
  have declaredAlike : declared? middle (items.map second) =
      declared? members (items.map fun item => (first item).andThen (second item)) := by
    refine declared?_andThen first second optional (fun item held => ?_)
      fun item held value found => ?_
    · rw [fits item held]
      exact find?_translate?_write written translated (List.mem_map_of_mem held)
    · exact Rule.isSome_part_of_admits
        (admits_of_translate? translated (List.mem_map_of_mem held)) found
  rw [translate?_eq_some_iff] at translated
  obtain ⟨declared, others, firstPart, secondPart, rfl⟩ := translated
  -- What the first translation wrote under declared names is read again, so that the second one
  -- keeps only what the first one kept.
  have passesOver : ∀ part : β → Option γ,
      undeclared? (items.map second) part (declared ++ others) =
        undeclared? (items.map second) part others := by
    intro part
    refine undeclared?_append_of_read part others fun name held => ?_
    rw [reads]
    exact mem_writeNames_of_declared? firstPart held
  have othersAlike : others? (items.map second) late (declared ++ others) =
      others? (items.map fun item => (first item).andThen (second item)) (openThen early late)
        members := by
    cases early with
    | none =>
        cases secondPart
        cases late with
        | none => rfl
        | some part => exact passesOver part
    | some part =>
        cases late with
        | none => rfl
        | some next => exact (passesOver next).trans (undeclared?_andThen fits secondPart)
  rw [translate?, translate?, declaredAlike, othersAlike]

end Composition

/-! ## (5) Members in declaration order

A rule may leave its member as it is. Members that such rules reproduce stand in declaration order
with the undeclared ones behind them, so that any translation of them goes through in place. -/

/-- The rule that keeps a member under its name. -/
def Rule.keeping (name : String) (isOptional : Bool) : Rule α α := ⟨name, name, isOptional, some⟩

/-- What keeps the other members of an open object, and drops those of a closed one. -/
def keepingOthers (isOpen : Bool) : Option (α → Option α) := if isOpen then some some else none

/-- Other members are kept as they are. -/
theorem eq_some_of_mem_keepingOthers {isOpen : Bool} {part : α → Option α}
    (kept : part ∈ keepingOthers isOpen) : part = some := by
  cases isOpen with
  | false => cases kept
  | true =>
      cases kept
      rfl

/-- The declared members of a list depend on what is found under the names that rules read. -/
theorem declared?_congr {left right : List (String × α)} {rules : List (Rule α β)}
    (alike : ∀ rule ∈ rules, find? left rule.read = find? right rule.read) :
    declared? left rules = declared? right rules := by
  induction rules with
  | nil => rfl
  | cons rule rest induction =>
      rw [List.forall_mem_cons] at alike
      rw [declared?, declared?, alike.1, induction alike.2]

section Keeping

variable {items : List ι} {name : ι → String} {isOptional : ι → Bool} {isOpen : Bool}

/-- Of several undeclared members with one name the last value counts, at the place of the first;
what is reproduced stays reproduced. -/
theorem translate?_keeping_ofList {members : List (String × α)} (distinct : (items.map name).Nodup)
    (kept : translate? (items.map fun item => Rule.keeping (name item) (isOptional item))
      (keepingOthers isOpen) members = some members) :
    translate? (items.map fun item => Rule.keeping (name item) (isOptional item))
      (keepingOthers isOpen) (ofList members) = some (ofList members) := by
  rw [translate?_eq_some_iff] at kept
  obtain ⟨declared, others, first, second, same⟩ := kept
  subst same
  have writes : writeNames (items.map fun item => Rule.keeping (α := α) (name item)
      (isOptional item)) = items.map name := by
    simp [writeNames, Rule.keeping]
  have reads : readNames (items.map fun item => Rule.keeping (α := α) (name item)
      (isOptional item)) = items.map name := by
    simp [readNames, Rule.keeping]
  have apart : ∀ key ∈ keys others, key ∉ items.map name := by
    intro key held
    rw [← writes]
    exact notMem_writeNames_of_others? second held
  -- the declared members come first under distinct names, so that they stay where they are
  have arranged : ofList (declared ++ others) = declared ++ ofList others := by
    refine ofList_append others (nodup_keys_declared? (writes ▸ distinct) first) ?_
    intro key held read
    refine apart key held ?_
    rw [← writes]
    exact mem_writeNames_of_declared? first read
  have declaredAgain : declared? (declared ++ ofList others)
      (items.map fun item => Rule.keeping (name item) (isOptional item)) = some declared := by
    -- a declared name is never looked for among the others
    rw [← first]
    refine declared?_congr fun rule held => ?_
    have known : rule.read ∈ items.map name := by
      rw [← reads]
      exact List.mem_map_of_mem held
    have absent : find? others rule.read = none :=
      (find?_eq_none_iff _ _).mpr fun kept => apart _ kept known
    have absentStill : find? (ofList others) rule.read = none :=
      (find?_eq_none_iff _ _).mpr fun kept => apart _ ((mem_keys_ofList _ _).mp kept) known
    rw [find?_append, find?_append, absent, absentStill]
  have othersAgain : others? (items.map fun item => Rule.keeping (name item) (isOptional item))
      (keepingOthers isOpen) (declared ++ ofList others) = some (ofList others) := by
    cases isOpen with
    | false =>
        cases second
        rfl
    | true =>
        have apartStill : ∀ key ∈ keys (ofList others), key ∉ items.map name :=
          fun key held => apart key ((mem_keys_ofList _ _).mp held)
        refine (undeclared?_append_of_read some _ fun key held => ?_).trans
          (undeclared?_some_of_apart (reads ▸ apartStill) (writes ▸ apartStill))
        rw [reads, ← writes]
        exact mem_writeNames_of_declared? first held
  rw [arranged, translate?, declaredAgain, othersAgain]
  rfl

end Keeping

end WireSchema.Members

import WireSchema.Proofs.Items
import WireSchema.Proofs.Members.Corresponding
import WireSchema.Proofs.Members.Translation

/-! # Translations side by side

Members that stand in another order translate alike: both lists have translations or none has, and
the translations hold the same under each key (`TranslateAlike.rel_translate?`). Where undeclared
members are kept they are visited in their own order, so that nothing more can be said of failures
than that there is one on both sides. -/

namespace WireSchema.Members

variable {α β : Type} {rules : List (Rule α β)} {open? : Option (α → Option β)}
  {lefts rights : List (String × α)} {same : β → β → Prop}

/-- **What two lists of members hold translates alike**, in whichever order it stands: the values of
the declared members do so by their rules, and those of the undeclared ones where they are kept. -/
structure TranslateAlike (same : β → β → Prop) (rules : List (Rule α β))
    (open? : Option (α → Option β)) (lefts rights : List (String × α)) : Prop where
  /-- The keys on the left are distinct. -/
  uniqueLeft : (keys lefts).Nodup
  /-- The keys on the right are distinct. -/
  uniqueRight : (keys rights).Nodup
  /-- The declared members. -/
  declared : ∀ rule ∈ rules, Option.Rel
    (fun left right => Option.Rel same (rule.part left) (rule.part right))
    (find? lefts rule.read) (find? rights rule.read)
  /-- The undeclared members. -/
  others : ∀ part ∈ open?, ∀ key ∉ readNames rules, Option.Rel
    (fun left right => Option.Rel same (part left) (part right))
    (find? lefts key) (find? rights key)

/-- The translations of members with distinct keys, by what is found under each key. -/
theorem translate?_isSome_iff_find? {members : List (String × α)} (unique : (keys members).Nodup) :
    (translate? rules open? members).isSome ↔
      (∀ rule ∈ rules, rule.Admits members) ∧
      ∀ part ∈ open?, ∀ key ∉ readNames rules, ∀ value, find? members key = some value →
        key ∉ writeNames rules ∧ (part value).isSome := by
  rw [translate?_isSome_iff]
  refine and_congr_right fun _ => forall₂_congr fun part _ => ?_
  -- members with distinct keys are those that are found under them
  constructor
  · intro each key unread value found
    exact each (key, value) (mem_of_find? found) unread
  · intro each member held unread
    exact each member.1 unread member.2 (find?_of_mem unique held)

/-- Nothing is written under a key that is read and that no rule writes. -/
theorem find?_translate?_eq_none {members : List (String × α)} {outputs : List (String × β)}
    (translated : translate? rules open? members = some outputs) {key : String}
    (unwritten : key ∉ writeNames rules) (read : key ∈ readNames rules) :
    find? outputs key = none := by
  rw [find?_eq_none_iff]
  intro held
  obtain ⟨⟨_, output⟩, outputHeld, rfl⟩ := List.mem_map.mp held
  rcases mem_translate? translated outputHeld with
    ⟨rule, ruleHeld, _, _, _, written⟩ | ⟨_, _, _, _, unread, _⟩
  · exact unwritten (written ▸ List.mem_map_of_mem ruleHeld)
  · exact unread read

namespace TranslateAlike

variable (alike : TranslateAlike same rules open? lefts rights)

include alike in
/-- Of two translations that go alike, either both or neither succeed. -/
theorem isSome_eq :
    (translate? rules open? lefts).isSome = (translate? rules open? rights).isSome := by
  rw [Bool.eq_iff_iff, translate?_isSome_iff_find? alike.uniqueLeft,
    translate?_isSome_iff_find? alike.uniqueRight]
  refine and_congr (forall₂_congr fun rule held => ?_) (forall₂_congr fun part kept =>
    forall₂_congr fun key unread => ?_)
  · rw [Rule.Admits, Rule.Admits]
    rcases eq_none_or_eq_some_of_rel (alike.declared rule held) with
      ⟨absentLeft, absentRight⟩ | ⟨left, right, foundLeft, foundRight, outcomes⟩
    · rw [absentLeft, absentRight]
    · rw [foundLeft, foundRight]
      simp only [isSome_eq_of_rel outcomes]
  · rcases eq_none_or_eq_some_of_rel (alike.others part kept key unread) with
      ⟨absentLeft, absentRight⟩ | ⟨left, right, foundLeft, foundRight, outcomes⟩
    · simp [absentLeft, absentRight]
    · simp [foundLeft, foundRight, isSome_eq_of_rel outcomes]

include alike in
/-- The two translations hold the same under each key. -/
theorem find? (written : (writeNames rules).Nodup) {leftOutputs rightOutputs : List (String × β)}
    (leftTranslated : translate? rules open? lefts = some leftOutputs)
    (rightTranslated : translate? rules open? rights = some rightOutputs) (key : String) :
    Option.Rel same (Members.find? leftOutputs key) (Members.find? rightOutputs key) := by
  -- a key is written by a rule, or read by one and given away, or neither
  by_cases isWritten : key ∈ writeNames rules
  · obtain ⟨rule, held, rfl⟩ := List.mem_map.mp isWritten
    rw [find?_translate?_write written leftTranslated held,
      find?_translate?_write written rightTranslated held]
    exact rel_bind (alike.declared rule held) fun _ _ outcomes => outcomes
  · by_cases isRead : key ∈ readNames rules
    · rw [find?_translate?_eq_none leftTranslated isWritten isRead,
        find?_translate?_eq_none rightTranslated isWritten isRead]
      exact .none
    · rw [find?_translate?_other leftTranslated isWritten isRead,
        find?_translate?_other rightTranslated isWritten isRead]
      cases open? with
      | none => exact .none
      | some part =>
          rw [Option.bind_some, Option.bind_some]
          exact rel_bind (alike.others part rfl key isRead) fun _ _ outcomes => outcomes

include alike in
/-- **Members that hold what translates alike** have translations that hold the same, under distinct
keys, or have none. -/
theorem rel_translate? (written : (writeNames rules).Nodup) :
    Option.Rel (fun leftOutputs rightOutputs => (keys leftOutputs).Nodup ∧
        (keys rightOutputs).Nodup ∧
        ∀ key, Option.Rel same (Members.find? leftOutputs key) (Members.find? rightOutputs key))
      (translate? rules open? lefts) (translate? rules open? rights) := by
  have together := alike.isSome_eq
  cases leftTranslated : translate? rules open? lefts with
  | none =>
      rw [leftTranslated, Option.isSome_none] at together
      rw [Option.not_isSome_iff_eq_none.mp (Bool.eq_false_iff.mp together.symm)]
      exact .none
  | some leftOutputs =>
      rw [leftTranslated, Option.isSome_some] at together
      obtain ⟨rightOutputs, rightTranslated⟩ := Option.isSome_iff_exists.mp together.symm
      rw [rightTranslated]
      exact .some ⟨nodup_keys_translate? written alike.uniqueLeft leftTranslated,
        nodup_keys_translate? written alike.uniqueRight rightTranslated,
        alike.find? written leftTranslated rightTranslated⟩

end TranslateAlike

end WireSchema.Members

namespace WireSchema.Items

open Members (rel_bind)

/-- Items translate alike when those at each position do. -/
theorem rel_translate? {α β : Type} {same : β → β → Prop} {part : Nat → α → Option β}
    {lefts rights : List α}
    (alike : Corresponds
      (fun position left right => Option.Rel same (part position left) (part position right)) lefts
      rights) :
    Option.Rel (List.Forall₂ same) (translate? part lefts) (translate? part rights) := by
  induction lefts generalizing part rights with
  | nil =>
      cases alike with
      | nil => exact .some .nil
  | cons left lefts induction =>
      cases alike with
      | cons first later =>
          exact rel_bind first fun output other related =>
            rel_bind (induction later) fun outputs others each => .some (.cons related each)

end WireSchema.Items

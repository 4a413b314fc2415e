import WireSchema.Proofs.Json.Exchanging

/-! # Parts of documents and their texts

A part of a document is at a location: the names and positions that lead to it. If it is an object,
its text can be cut out of every text of the document, since what stands before it leads the reader
to where the part is awaited (`exists_standsAt`). -/

namespace WireSchema.Json

open Token (scanFrom)

/-- **A part of a document** at a location. -/
inductive PartAt (part : Json) : Location → Json → Prop
  /-- The whole document. -/
  | here : PartAt part [] part
  /-- A part of a member. -/
  | member {location : Location} {value : Json} (inside : PartAt part location value)
      (name : String) (front behind : List (String × Json)) :
      PartAt part (.member name :: location) (.object (front ++ (name, value) :: behind))
  /-- A part of an item. -/
  | item {location : Location} {value : Json} (inside : PartAt part location value)
      (front behind : List Json) :
      PartAt part (.item front.length :: location) (.array (front ++ value :: behind))

namespace Written

/-! ## (1) Texts that lead on -/

/-- No text leads from a state to itself. -/
theorem leads_nil (state : State) : Leads state state [] := fun _ => rfl

/-- Blanks lead from a state to itself. -/
theorem leads_blank {blanks : List Char} (blank : IsBlank blanks) (state : State) :
    Leads state state blanks := fun behind => by rw [scanFrom_blank blank]

/-- One text after another leads on. -/
theorem Leads.append {first second third : State} {here behind : List Char}
    (leads : Leads first second here) (leadsOn : Leads second third behind) :
    Leads first third (here ++ behind) := by
  intro others
  rw [List.append_assoc, leads, leadsOn]

/-- A value is followed by a text that starts with a mark. -/
theorem Follows.append {state next : State} {frames : List Frame} {read : Written}
    {here behind : List Char} {mark : Char} (follows : Follows state frames read here)
    (isMark : Token.classify mark ≠ .plain)
    (leadsOn : Leads (.after read frames) next (mark :: behind)) :
    Leads state next (here ++ mark :: behind) := by
  intro others
  rw [List.append_assoc, List.cons_append, follows _ ⟨mark, _, rfl, isMark⟩]
  exact leadsOn others

/-! ## (2) Items -/

/-- Items behind others are items behind a comma. -/
theorem exists_items_of_more {front rest : List Json} {value : Json} {text : List Char}
    (hasText : MoreItemsHaveText (front ++ value :: rest) text) :
    ∃ behind, text = ',' :: behind ∧ ItemsHaveText (front ++ value :: rest) behind := by
  cases front with
  | nil =>
      obtain ⟨here, behind, first, more, rfl⟩ := hasText
      exact ⟨_, rfl, here, behind, first, more, rfl⟩
  | cons item front =>
      obtain ⟨here, behind, first, more, rfl⟩ := hasText
      exact ⟨_, rfl, here, behind, first, more, rfl⟩

/-- The text of the items of an array leads to each of them. -/
theorem exists_leads_items {front rest : List Json} {value : Json} {text : List Char}
    (hasText : ItemsHaveText (front ++ value :: rest) text) :
    ∃ before here behind, text = before ++ (here ++ behind) ∧ Padded value.HasText here ∧
      ∀ state reversed frames, AwaitsValue state (.array reversed :: frames) →
        ∃ next others, others.length = reversed.length + front.length ∧
          AwaitsValue next (.array others :: frames) ∧ Leads state next before := by
  -- the items in front are read one after the other, each up to its comma
  induction front generalizing text with
  | nil =>
      obtain ⟨here, behind, valueHasText, _, rfl⟩ := hasText
      exact ⟨[], here, behind, rfl, valueHasText, fun state reversed frames awaits =>
        ⟨state, reversed, rfl, awaits, leads_nil state⟩⟩
  | cons item front induction =>
      obtain ⟨first, more, itemHasText, moreHaveText, rfl⟩ := hasText
      obtain ⟨others, rfl, othersHaveText⟩ := exists_items_of_more moreHaveText
      obtain ⟨before, here, behind, rfl, valueHasText, leads⟩ := induction othersHaveText
      obtain ⟨written, _, follows⟩ := (isRead item).padded itemHasText
      refine ⟨first ++ ',' :: before, here, behind, by simp, valueHasText,
        fun state reversed frames awaits => ?_⟩
      obtain ⟨next, others, length, nextAwaits, leadsOn⟩ :=
        leads _ (written :: reversed) frames (.nextItem _ _)
      have comma : Leads (.after written (.array reversed :: frames))
          (.nextItem (written :: reversed) frames) [','] := fun _ => rfl
      refine ⟨next, others, ?_, nextAwaits,
        (follows state _ awaits).append nofun (comma.append leadsOn)⟩
      rw [length, List.length_cons, List.length_cons]
      omega

/-! ## (3) Members -/

/-- Members behind others are members behind a comma. -/
theorem exists_members_of_more {front rest : List (String × Json)} {name : String} {value : Json}
    {text : List Char} (hasText : MoreMembersHaveText (front ++ (name, value) :: rest) text) :
    ∃ behind, text = ',' :: behind ∧ MembersHaveText (front ++ (name, value) :: rest) behind := by
  cases front with
  | nil =>
      obtain ⟨before, here, behind, named, first, more, rfl⟩ := hasText
      exact ⟨_, rfl, before, here, behind, named, first, more, rfl⟩
  | cons member front =>
      obtain ⟨before, here, behind, named, first, more, rfl⟩ := hasText
      exact ⟨_, rfl, before, here, behind, named, first, more, rfl⟩

/-- The text of the members of an object leads to the value of each of them. -/
theorem exists_leads_members {front rest : List (String × Json)} {name : String} {value : Json}
    {text : List Char} (hasText : MembersHaveText (front ++ (name, value) :: rest) text) :
    ∃ before here behind, text = before ++ (here ++ behind) ∧ Padded value.HasText here ∧
      ∀ state reversed frames, AwaitsName state reversed frames →
        ∃ others pieces, Piece.text pieces = .ok name ∧
          Leads state (.value (.object others pieces :: frames)) before := by
  -- the members in front are read one after the other, each up to its comma
  induction front generalizing text with
  | nil =>
      obtain ⟨named, here, behind, nameHasText, valueHasText, _, rfl⟩ := hasText
      obtain ⟨pieces, spells, names⟩ := exists_name nameHasText
      refine ⟨named ++ [':'], here, behind, by simp, valueHasText,
        fun state reversed frames awaits => ⟨reversed, pieces, spells, fun others => ?_⟩⟩
      rw [List.append_assoc]
      exact names state reversed frames awaits others
  | cons member front induction =>
      obtain ⟨named, first, more, nameHasText, firstHasText, moreHaveText, rfl⟩ := hasText
      obtain ⟨others, rfl, othersHaveText⟩ := exists_members_of_more moreHaveText
      obtain ⟨before, here, behind, rfl, valueHasText, leads⟩ := induction othersHaveText
      obtain ⟨pieces, _, names⟩ := exists_name nameHasText
      obtain ⟨written, _, follows⟩ := (isRead member.2).padded firstHasText
      refine ⟨(named ++ [':']) ++ (first ++ ',' :: before), here, behind, by simp, valueHasText,
        fun state reversed frames awaits => ?_⟩
      obtain ⟨others, nextPieces, spells, leadsOn⟩ :=
        leads _ ((pieces, written) :: reversed) frames (.next _ _)
      have colon : Leads state (.value (.object reversed pieces :: frames)) (named ++ [':']) := by
        intro others
        rw [List.append_assoc]
        exact names state reversed frames awaits others
      have comma : Leads (.after written (.object reversed pieces :: frames))
          (.nextName ((pieces, written) :: reversed) frames) [','] := fun _ => rfl
      exact ⟨others, nextPieces, spells,
        colon.append ((follows _ _ (.value _)).append nofun (comma.append leadsOn))⟩

/-! ## (4) Parts -/

/-- The text of an object inside a document is cut out of a text of the document. -/
theorem exists_cut {members : List (String × Json)} {location : Location} {json : Json}
    (inside : PartAt (.object members) location json) {text : List Char}
    (hasText : json.HasText text) :
    ∃ before here behind read, text = before ++ (here ++ behind) ∧
      (Json.object members).HasText here ∧ Shows read (.object members) ∧
      ∀ state frames outer, AwaitsValue state frames → Locates frames outer →
        ∃ next inner, AwaitsValue next inner ∧ Locates inner (outer ++ location) ∧
          Leads state next before ∧ Leads next (.after read inner) here := by
  -- the opening mark, the entries in front and the blanks lead to the text of the next inner part
  induction inside generalizing text with
  | here =>
      obtain ⟨read, shown, leads⟩ := exists_leads_object hasText
      refine ⟨[], text, [], read, by simp, hasText, shown, fun state frames outer awaits locates =>
        ⟨state, frames, awaits, ?_, leads_nil state, leads state frames awaits⟩⟩
      rw [List.append_nil]
      exact locates
  | member inside name front behind induction =>
      obtain ⟨all, allHaveText, rfl⟩ := hasText
      obtain ⟨before, _, behind, rfl, ⟨blanks, own, others, blank, ownHasText, _, rfl⟩, leads⟩ :=
        exists_leads_members allHaveText
      obtain ⟨ownBefore, here, ownBehind, read, rfl, partHasText, shown, leadsOn⟩ :=
        induction ownHasText
      refine ⟨'{' :: (before ++ (blanks ++ ownBefore)), here,
        ownBehind ++ (others ++ (behind ++ ['}'])), read, by simp, partHasText, shown,
        fun state frames outer awaits locates => ?_⟩
      have opens : Leads state (.firstName frames) ['{'] :=
        fun _ => run_of_awaitsValue awaits rfl _
      obtain ⟨reversed, pieces, spells, leads⟩ := leads _ _ frames (.first frames)
      obtain ⟨next, inner, nextAwaits, innerLocates, leadsOn, reads⟩ :=
        leadsOn _ _ (outer ++ [.member name]) (.value _) (locates.object spells reversed)
      rw [List.append_assoc] at innerLocates
      exact ⟨next, inner, nextAwaits, innerLocates,
        opens.append (leads.append ((leads_blank blank _).append leadsOn)), reads⟩
  | item inside front behind induction =>
      obtain ⟨all, allHaveText, rfl⟩ := hasText
      obtain ⟨before, _, behind, rfl, ⟨blanks, own, others, blank, ownHasText, _, rfl⟩, leads⟩ :=
        exists_leads_items allHaveText
      obtain ⟨ownBefore, here, ownBehind, read, rfl, partHasText, shown, leadsOn⟩ :=
        induction ownHasText
      refine ⟨'[' :: (before ++ (blanks ++ ownBefore)), here,
        ownBehind ++ (others ++ (behind ++ [']'])), read, by simp, partHasText, shown,
        fun state frames outer awaits locates => ?_⟩
      have opens : Leads state (.firstItem frames) ['['] :=
        fun _ => run_of_awaitsValue awaits rfl _
      obtain ⟨awaiting, reversed, length, awaits, leads⟩ := leads _ [] frames (.firstItem frames)
      rw [List.length_nil, Nat.zero_add] at length
      obtain ⟨next, inner, nextAwaits, innerLocates, leadsOn, reads⟩ :=
        leadsOn _ _ (outer ++ [.item front.length]) awaits (length ▸ locates.array reversed)
      rw [List.append_assoc] at innerLocates
      exact ⟨next, inner, nextAwaits, innerLocates,
        opens.append (leads.append ((leads_blank blank _).append leadsOn)), reads⟩

/-- **An object inside a document stands at its location** in every text of the document. -/
theorem exists_standsAt {members : List (String × Json)} {location : Location} {json : Json}
    (inside : PartAt (.object members) location json) {text : List Char}
    (hasText : Padded json.HasText text) :
    ∃ before here behind read, text = before ++ (here ++ behind) ∧
      (Json.object members).HasText here ∧ Shows read (.object members) ∧
      StandsAt location read before here := by
  obtain ⟨blanks, own, others, blank, ownHasText, _, rfl⟩ := hasText
  obtain ⟨before, here, behind, read, rfl, partHasText, shown, leads⟩ :=
    exists_cut inside ownHasText
  obtain ⟨state, frames, awaits, locates, leads, reads⟩ := leads _ [] [] (.value []) .root
  exact ⟨blanks ++ before, here, behind ++ others, read, by simp, partHasText, shown, state, frames,
    awaits, locates, (leads_blank blank _).append leads, reads⟩

end Written

end WireSchema.Json

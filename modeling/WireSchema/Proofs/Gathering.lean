import Mathlib.Data.List.Forall2
import WireSchema.Proofs.Runs

/-! # Gathering

Things that each give any number of others, or fail, and all that they give in their order. What is
gathered is told by a relation that does not ask in which order things are looked at
(`gather?_eq_some_iff`), and nothing is gathered exactly when one of the things fails. Gathering in
stages is gathering at once. -/

namespace WireSchema

variable {α β γ : Type}

/-- **All that things give**, in order: what the first one gives, and then what the others give. -/
inductive Gathered (gives : α → List β → Prop) : List α → List β → Prop
  /-- No things give nothing. -/
  | nil : Gathered gives [] []
  /-- What the first thing gives comes before what the others give. -/
  | cons {first : α} {rest : List α} {here behind : List β} (firstGives : gives first here)
      (restGives : Gathered gives rest behind) : Gathered gives (first :: rest) (here ++ behind)

/-- Things that give the same have the same gathered. -/
theorem gathered_congr {gives gives' : α → List β → Prop}
    (same : ∀ thing here, gives thing here ↔ gives' thing here) (things : List α) (all : List β) :
    Gathered gives things all ↔ Gathered gives' things all := by
  have alike : gives = gives' := funext fun thing => funext fun here => propext (same thing here)
  rw [alike]

/-- What one thing gives is all that is gathered from it. -/
theorem gathered_singleton {gives : α → List β → Prop} {thing : α} {here : List β}
    (thingGives : gives thing here) : Gathered gives [thing] here := by
  have gathered : Gathered gives [thing] (here ++ []) := .cons thingGives .nil
  rw [List.append_nil] at gathered
  exact gathered

/-- Things that each give one thing give them in order. -/
theorem gathered_of_forall₂ {gives : α → List β → Prop} {things : List α} {results : List β}
    (each : List.Forall₂ (fun thing result => gives thing [result]) things results) :
    Gathered gives things results := by
  induction each with
  | nil => exact .nil
  | cons first _ induction => exact .cons first induction

/-- What is gathered is given by one of the things. -/
theorem exists_gives_of_mem {gives : α → List β → Prop} {things : List α} {all : List β}
    (gathered : Gathered gives things all) {result : β} (held : result ∈ all) :
    ∃ thing ∈ things, ∃ here, gives thing here ∧ result ∈ here := by
  induction gathered with
  | nil => cases held
  | cons firstGives _ induction =>
      rcases List.mem_append.mp held with here | behind
      · exact ⟨_, List.mem_cons_self, _, firstGives, here⟩
      · obtain ⟨thing, thingHeld, given⟩ := induction behind
        exact ⟨thing, List.mem_cons_of_mem _ thingHeld, given⟩

/-- All that things give, if none of them fails. -/
def gather? (give : α → Option (List β)) : List α → Option (List β)
  | [] => some []
  | first :: rest =>
      (give first).bind fun here => (gather? give rest).bind fun behind => some (here ++ behind)

section Gather

variable {give : α → Option (List β)}

/-- Gathering is what the relation says. -/
theorem gather?_eq_some_iff {things : List α} {all : List β} :
    gather? give things = some all ↔
      Gathered (fun thing here => give thing = some here) things all := by
  -- what is gathered in front is split off with each thing
  induction things generalizing all with
  | nil =>
      constructor
      · rintro ⟨⟩
        exact .nil
      · rintro ⟨⟩
        rfl
  | cons first rest induction =>
      constructor
      · intro gathers
        obtain ⟨here, gives, gathers⟩ := Option.bind_eq_some_iff.mp gathers
        obtain ⟨behind, gathersRest, same⟩ := Option.bind_eq_some_iff.mp gathers
        cases same
        exact .cons gives (induction.mp gathersRest)
      · intro gathered
        cases gathered with
        | cons gives gatheredRest =>
            rw [gather?, gives, Option.bind_some, induction.mpr gatheredRest, Option.bind_some]

/-- Nothing is gathered exactly when one of the things fails. -/
theorem gather?_eq_none_iff {things : List α} :
    gather? give things = none ↔ ∃ thing ∈ things, give thing = none := by
  induction things with
  | nil => simp [gather?]
  | cons first rest induction =>
      rw [gather?, List.exists_mem_cons_iff, ← induction]
      cases give first <;> cases gather? give rest <;> simp

/-- Gathering from two lists, one behind the other, puts what they give one behind the other. -/
theorem gather?_append (front behind : List α) :
    gather? give (front ++ behind) = (gather? give front).bind fun here =>
      (gather? give behind).bind fun others => some (here ++ others) := by
  induction front with
  | nil => cases rest : gather? give behind <;> simp [gather?, rest]
  | cons first rest induction =>
      rw [List.cons_append, gather?, gather?, induction]
      cases give first <;> cases gather? give rest <;> cases gather? give behind <;> simp

/-- **Gathering in stages** is gathering at once. -/
theorem gather?_gather? (next : β → Option (List γ)) (things : List α) :
    (gather? give things).bind (gather? next) =
      gather? (fun thing => (give thing).bind (gather? next)) things := by
  induction things with
  | nil => rfl
  | cons first rest induction =>
      rw [gather?, gather?, ← induction]
      cases give first with
      | none => rfl
      | some here =>
          cases gather? give rest with
          -- the first stage fails behind, whatever the second one makes of what is here
          | none => cases gather? next here <;> simp
          | some behind => exact gather?_append here behind

/-- What is gathered behind a first stage that gives one thing for each. -/
theorem bind_mapM_gather? (stage : α → Option β) (next : β → Option (List γ)) (things : List α) :
    (things.mapM stage).bind (gather? next) =
      gather? (fun thing => (stage thing).bind next) things := by
  induction things with
  | nil => rfl
  | cons first rest induction =>
      rw [List.mapM_cons, gather?, ← induction]
      cases stage first with
      | none => rfl
      | some staged =>
          cases rest.mapM stage with
          | none => cases given : next staged <;> simp [given]
          | some others => rfl

/-- Things that are taken one by one and put together are gathered. -/
theorem map_flatten_mapM (give : α → Option (List β)) (things : List α) :
    (things.mapM give).map List.flatten = gather? give things := by
  induction things with
  | nil => rfl
  | cons first rest induction =>
      rw [List.mapM_cons, gather?, ← induction]
      cases give first with
      | none => rfl
      | some here => cases rest.mapM give <;> simp

end Gather

/-! ## Runs over lists -/

/-- A run over a list, without regard to errors. -/
theorem toOption_mapM {ε : Type} (run : α → Except ε β) (things : List α) :
    (things.mapM run).toOption = things.mapM fun thing => (run thing).toOption := by
  induction things with
  | nil => rfl
  | cons first rest induction =>
      rw [List.mapM_cons, List.mapM_cons, ← induction]
      cases run first with
      | error error => rfl
      | ok output => cases rest.mapM run <;> rfl

/-- **A run over a list succeeds** when each of its runs does, and gives what they give. -/
theorem mapM_eq_ok_iff {ε : Type} {run : α → Except ε β} {things : List α} {results : List β} :
    things.mapM run = .ok results ↔
      List.Forall₂ (fun thing result => run thing = .ok result) things results := by
  induction things generalizing results with
  | nil =>
      rw [List.forall₂_nil_left_iff]
      exact ⟨fun succeeds => (Except.ok.inj succeeds).symm, fun none => by rw [none]; rfl⟩
  | cons first rest induction =>
      rw [List.mapM_cons, bind_eq_ok_iff]
      constructor
      · rintro ⟨result, runs, later⟩
        obtain ⟨others, runsRest, same⟩ := bind_eq_ok_iff.mp later
        cases same
        exact .cons runs (induction.mp runsRest)
      · rintro (_ | ⟨runs, runsRest⟩)
        exact ⟨_, runs, bind_eq_ok_iff.mpr ⟨_, induction.mpr runsRest, rfl⟩⟩

/-- **A run over a list fails** as the first of its runs that fails. -/
theorem mapM_eq_error_iff {ε : Type} {run : α → Except ε β} {things : List α} {error : ε} :
    things.mapM run = .error error ↔
      ∃ front thing behind, things = front ++ thing :: behind ∧
        (∀ earlier ∈ front, ∃ result, run earlier = .ok result) ∧ run thing = .error error := by
  induction things with
  | nil => exact ⟨nofun, fun ⟨front, _, _, split, _⟩ => by cases front <;> cases split⟩
  | cons first rest induction =>
      rw [List.mapM_cons, bind_eq_error_iff]
      constructor
      · rintro (fails | ⟨result, runs, later⟩)
        · exact ⟨[], first, rest, rfl, nofun, fails⟩
        · rcases bind_eq_error_iff.mp later with failsRest | ⟨_, _, never⟩
          · obtain ⟨front, thing, behind, rfl, succeed, fails⟩ := induction.mp failsRest
            exact ⟨first :: front, thing, behind, rfl,
              List.forall_mem_cons.mpr ⟨⟨result, runs⟩, succeed⟩, fails⟩
          · cases never
      · -- the failing thing is the first one, or the first one is among those that succeed
        rintro ⟨_ | ⟨_, front⟩, thing, behind, split, succeed, fails⟩
        · cases split
          exact Or.inl fails
        · cases split
          obtain ⟨⟨result, runs⟩, succeed⟩ := List.forall_mem_cons.mp succeed
          refine Or.inr ⟨result, runs, bind_eq_error_iff.mpr (Or.inl (induction.mpr ?_))⟩
          exact ⟨front, thing, behind, rfl, succeed, fails⟩

/-- A run over a list fails exactly when one of its runs does. -/
theorem exists_mapM_eq_error_iff {ε : Type} {run : α → Except ε β} {things : List α} :
    (∃ error, things.mapM run = .error error) ↔
      ∃ thing ∈ things, ∃ error, run thing = .error error := by
  constructor
  · rintro ⟨error, fails⟩
    obtain ⟨front, thing, behind, rfl, _, fails⟩ := mapM_eq_error_iff.mp fails
    exact ⟨thing, List.mem_append_right _ List.mem_cons_self, error, fails⟩
  · rintro ⟨thing, held, error, fails⟩
    cases runs : things.mapM run with
    | error other => exact ⟨other, rfl⟩
    | ok results =>
        -- were all of them to succeed, the failing one would have a result at its position
        obtain ⟨position, bound, rfl⟩ := List.getElem_of_mem held
        have succeed := mapM_eq_ok_iff.mp runs
        have succeeds := succeed.get bound (succeed.length_eq ▸ bound)
        cases succeeds.symm.trans fails

/-- What is gathered by runs, without regard to errors. -/
theorem toOption_flatten_mapM {ε : Type} (run : α → Except ε (List β)) (things : List α) :
    ((things.mapM run).map List.flatten).toOption =
      gather? (fun thing => (run thing).toOption) things := by
  rw [← map_flatten_mapM, ← toOption_mapM]
  cases things.mapM run <;> rfl

/-- A run fails exactly when it has no outcome. -/
theorem toOption_eq_none_iff {ε : Type} {actual : Except ε α} :
    actual.toOption = none ↔ ∃ error, actual = .error error := by
  cases actual <;> simp [Except.toOption]

/-- A run with something behind it has no outcome when it fails, or what is behind it has none. -/
theorem bind_toOption_eq_none_iff {ε : Type} {actual : Except ε α} {next : α → Option β} :
    actual.toOption.bind next = none ↔
      (∃ error, actual = .error error) ∨ ∃ value, actual = .ok value ∧ next value = none := by
  cases actual <;> simp [Except.toOption]

/-- A run with something behind it has an outcome when both have one. -/
theorem bind_toOption_eq_some_iff {ε : Type} {actual : Except ε α} {next : α → Option β}
    {result : β} :
    actual.toOption.bind next = some result ↔
      ∃ value, actual = .ok value ∧ next value = some result := by
  cases actual <;> simp [Except.toOption]

end WireSchema

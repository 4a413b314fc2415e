import Mathlib.Data.List.Find
import WireSchema.KeyMap
import WireSchema.Proofs.Members.Translation

/-! # Carrying objects over

A key map reads the declared members of an object first, which fails for the first required one that
is missing, and then keeps the others, which fails for the first one whose key is declared on the
other side (`carry_object`). Without regard to errors this is a translation of members. -/

namespace WireSchema.KeyMap

open Members

/-! ## (1) The two steps -/

/-- The first required field that is missing on a side. -/
def missing? (source : Side) (members : List (String × Value)) (pairs : List KeyPair) :
    Option KeyPair :=
  pairs.find? fun pair => !pair.isOptional && !contains members (pair.on source)

/-- The declared members that are there, under their names on the other side. -/
def carried (source : Side) (members : List (String × Value)) (pairs : List KeyPair) :
    List (String × Value) :=
  pairs.filterMap fun pair =>
    (find? members (pair.on source)).map fun value => (pair.on source.opposite, value)

/-- The first undeclared key that is declared on the other side. -/
def collision? (map : KeyMap) (source : Side) (members : List (String × Value)) : Option String :=
  (keys members).find? fun key => !map.declares key source && map.declares key source.opposite

/-- The undeclared members. -/
def kept (map : KeyMap) (source : Side) (members : List (String × Value)) : List (String × Value) :=
  members.filter fun member => !map.declares member.1 source

section Declared

variable {source : Side} {members : List (String × Value)} {pair : KeyPair} {value : Value}

/-- A pair whose key is found is not missing. -/
theorem missing?_cons_of_found (found : find? members (pair.on source) = some value)
    (rest : List KeyPair) :
    missing? source members (pair :: rest) = missing? source members rest := by
  simp [missing?, contains, found]

/-- A pair whose key is found carries the value to the name on the other side. -/
theorem carried_cons_of_found (found : find? members (pair.on source) = some value)
    (rest : List KeyPair) :
    carried source members (pair :: rest) =
      (pair.on source.opposite, value) :: carried source members rest := by
  simp [carried, found]

/-- A pair whose key is absent is missing, unless it is optional. -/
theorem missing?_cons_of_absent (absent : find? members (pair.on source) = none)
    (rest : List KeyPair) :
    missing? source members (pair :: rest) =
      if pair.isOptional then missing? source members rest else some pair := by
  cases optional : pair.isOptional <;> simp [missing?, contains, absent, optional]

/-- A pair whose key is absent carries nothing. -/
theorem carried_cons_of_absent (absent : find? members (pair.on source) = none)
    (rest : List KeyPair) :
    carried source members (pair :: rest) = carried source members rest := by
  simp [carried, absent]

end Declared

section Undeclared

variable {map : KeyMap} {source : Side} {key : String}

/-- A declared key does not collide. -/
theorem collision?_cons_of_declared (declared : map.declares key source = true) (value : Value)
    (rest : List (String × Value)) :
    map.collision? source ((key, value) :: rest) = map.collision? source rest := by
  simp [collision?, declared]

/-- A declared member is not among those kept. -/
theorem kept_cons_of_declared (declared : map.declares key source = true) (value : Value)
    (rest : List (String × Value)) :
    map.kept source ((key, value) :: rest) = map.kept source rest := by
  simp [kept, declared]

/-- An undeclared key collides exactly if the other side declares it. -/
theorem collision?_cons_of_undeclared (undeclared : map.declares key source = false) (value : Value)
    (rest : List (String × Value)) :
    map.collision? source ((key, value) :: rest) =
      if map.declares key source.opposite then some key else map.collision? source rest := by
  cases colliding : map.declares key source.opposite <;> simp [collision?, undeclared, colliding]

/-- An undeclared member is kept. -/
theorem kept_cons_of_undeclared (undeclared : map.declares key source = false) (value : Value)
    (rest : List (String × Value)) :
    map.kept source ((key, value) :: rest) = (key, value) :: map.kept source rest := by
  simp [kept, undeclared]

end Undeclared

/-- Carrying the declared members fails for the first one missing, and inserts the carried ones
otherwise. -/
theorem carryDeclared_eq (source : Side) (members : List (String × Value)) (pairs : List KeyPair)
    (before : List (String × Value)) :
    carryDeclared source members pairs before =
      match missing? source members pairs with
      | some pair => .error ⟨"", .missingKey (pair.on source) source⟩
      | none => .ok (insertAll before (carried source members pairs)) := by
  induction pairs generalizing before with
  | nil => rfl
  | cons pair rest induction =>
      rw [carryDeclared]
      cases found : find? members (pair.on source) with
      | some value =>
          rw [missing?_cons_of_found found, carried_cons_of_found found]
          exact induction _
      | none =>
          rw [missing?_cons_of_absent found, carried_cons_of_absent found]
          cases pair.isOptional with
          | true => exact induction _
          | false => rfl

/-- Keeping the undeclared members fails for the first collision, and inserts the kept ones
otherwise. -/
theorem keepUndeclared_eq (map : KeyMap) (source : Side) (members before : List (String × Value)) :
    keepUndeclared map source members before =
      match map.collision? source members with
      | some key => .error ⟨"", .keyCollision key⟩
      | none => .ok (insertAll before (map.kept source members)) := by
  induction members generalizing before with
  | nil => rfl
  | cons member rest induction =>
      obtain ⟨key, value⟩ := member
      rw [keepUndeclared]
      cases declared : map.declares key source with
      | true =>
          rw [collision?_cons_of_declared declared, kept_cons_of_declared declared]
          exact induction _
      | false =>
          rw [collision?_cons_of_undeclared declared, kept_cons_of_undeclared declared]
          cases map.declares key source.opposite with
          | true => rfl
          | false => exact induction _

/-- **Carrying an object over** fails for the first required field that is missing; then, if the
others are kept, for the first of them whose key is declared on the other side; else it gives the
declared members under their other names and behind them the others. -/
theorem carry_object (map : KeyMap) (source : Side) (members : List (String × Value)) :
    map.carry source (.object members) =
      match missing? source members map.pairs with
      | some pair => .error ⟨"", .missingKey (pair.on source) source⟩
      | none =>
          if map.isOpen then
            match map.collision? source members with
            | some key => .error ⟨"", .keyCollision key⟩
            | none =>
                .ok (.object (ofList (carried source members map.pairs ++ map.kept source members)))
          else .ok (.object (ofList (carried source members map.pairs))) := by
  rw [carry, carryDeclared_eq]
  cases missing? source members map.pairs with
  | some pair => rfl
  | none =>
      show (if map.isOpen then _ else _) = _
      cases map.isOpen with
      | false => rfl
      | true =>
          simp only [if_true, keepUndeclared_eq]
          cases map.collision? source members with
          | some key => rfl
          | none =>
              -- writing the declared members and then the others is writing all of them
              rw [ofList_eq_insertAll, insertAll_append]
              rfl

/-- An object is not carried over when a required field is missing, or else when a member is kept
whose key is declared on the other side. -/
theorem carry_object_eq_error_iff {map : KeyMap} {source : Side} {members : List (String × Value)}
    {error : TranscodingError} :
    map.carry source (.object members) = .error error ↔
      (∃ pair, missing? source members map.pairs = some pair ∧
        error = ⟨"", .missingKey (pair.on source) source⟩) ∨
      missing? source members map.pairs = none ∧ map.isOpen = true ∧
        ∃ key, map.collision? source members = some key ∧ error = ⟨"", .keyCollision key⟩ := by
  rw [carry_object]
  cases missing? source members map.pairs with
  | some pair =>
      constructor
      · rintro ⟨⟩
        exact Or.inl ⟨pair, rfl, rfl⟩
      · rintro (⟨_, ⟨⟩, rfl⟩ | ⟨⟨⟩, _⟩)
        rfl
  | none =>
      cases map.isOpen with
      | false => simp
      | true =>
          cases map.collision? source members with
          | none => simp
          | some key =>
              constructor
              · rintro ⟨⟩
                exact Or.inr ⟨rfl, rfl, key, rfl, rfl⟩
              · rintro (⟨_, ⟨⟩, _⟩ | ⟨_, _, _, ⟨⟩, rfl⟩)
                rfl

/-- **An error of carrying a value over**: it is no object, a required field is missing, or the key
of a member that is kept is declared on the other side. -/
theorem carry_eq_error {map : KeyMap} {source : Side} {value : Value} {error : TranscodingError}
    (fails : map.carry source value = .error error) :
    (value.members? = none ∧ error = ⟨"", .wrongKind "object" value.kind⟩) ∨
    ∃ members, value = .object members ∧
      ((∃ pair, missing? source members map.pairs = some pair ∧
        error = ⟨"", .missingKey (pair.on source) source⟩) ∨
      map.isOpen = true ∧ ∃ key, map.collision? source members = some key ∧
        error = ⟨"", .keyCollision key⟩) := by
  cases value with
  | object members =>
      exact Or.inr ⟨members, rfl, (carry_object_eq_error_iff.mp fails).imp_right And.right⟩
  | _ =>
      cases fails
      exact Or.inl ⟨rfl, rfl⟩

/-- Of two lists of members, those of both are kept. -/
theorem kept_append (map : KeyMap) (source : Side) (left right : List (String × Value)) :
    map.kept source (left ++ right) = map.kept source left ++ map.kept source right :=
  List.filter_append left right

/-- What is kept is kept again. -/
theorem kept_kept (map : KeyMap) (source : Side) (members : List (String × Value)) :
    map.kept source (map.kept source members) = map.kept source members := by
  simp [kept, List.filter_filter]

/-- Collisions are looked for among the undeclared members. -/
theorem collision?_eq_find?_kept (map : KeyMap) (source : Side) (members : List (String × Value)) :
    map.collision? source members =
      (keys (map.kept source members)).find? (map.declares · source.opposite) := by
  induction members with
  | nil => rfl
  | cons member rest induction =>
      obtain ⟨key, value⟩ := member
      cases declared : map.declares key source with
      | true =>
          rw [collision?_cons_of_declared declared, kept_cons_of_declared declared]
          exact induction
      | false =>
          rw [collision?_cons_of_undeclared declared, kept_cons_of_undeclared declared, keys_cons,
            List.find?_cons, induction]
          cases map.declares key source.opposite <;> rfl

/-- Carrying an object over depends on what is found under the declared names and, where the others
are kept, on the others. -/
theorem carry_congr {map : KeyMap} {source : Side} {left right : List (String × Value)}
    (alike : ∀ pair ∈ map.pairs, find? left (pair.on source) = find? right (pair.on source))
    (sameKept : map.isOpen = true → map.kept source left = map.kept source right) :
    map.carry source (.object left) = map.carry source (.object right) := by
  have sameMissing : missing? source left map.pairs = missing? source right map.pairs := by
    refine List.find?_congr fun pair held => ?_
    rw [contains, contains, alike pair held]
  have sameCarried : carried source left map.pairs = carried source right map.pairs := by
    apply List.filterMap_congr
    intro pair held
    rw [alike pair held]
  rw [carry_object, carry_object, sameMissing, sameCarried]
  cases missing? source right map.pairs with
  | some pair => rfl
  | none =>
      cases isOpen : map.isOpen with
      | false => rfl
      | true =>
          -- an open map looks at the undeclared members and at nothing else
          rw [collision?_eq_find?_kept, collision?_eq_find?_kept, sameKept isOpen]

/-! ## (2) As a translation -/

/-- The rule by which a field is carried over from a side. -/
def rule (source : Side) (pair : KeyPair) : Rule Value Value :=
  ⟨pair.on source, pair.on source.opposite, pair.isOptional, some⟩

/-- A key is declared on a side exactly when it is the name of a field there. -/
theorem declares_iff (map : KeyMap) (key : String) (side : Side) :
    map.declares key side = true ↔ key ∈ map.pairs.map (KeyPair.on · side) := by
  simp [declares, List.any_eq_true]

/-- The rules of a key map read the keys on the side it starts from. -/
theorem readNames_rule (source : Side) (pairs : List KeyPair) :
    readNames (pairs.map (rule source)) = pairs.map (KeyPair.on · source) := by
  simp [readNames, rule]

/-- The rules of a key map write the keys on the other side. -/
theorem writeNames_rule (source : Side) (pairs : List KeyPair) :
    writeNames (pairs.map (rule source)) = pairs.map (KeyPair.on · source.opposite) := by
  simp [writeNames, rule]

/-- The rules of a key map give the carried members, unless one is missing. -/
theorem declared?_rule (source : Side) (members : List (String × Value)) (pairs : List KeyPair) :
    declared? members (pairs.map (rule source)) =
      match missing? source members pairs with
      | some _ => none
      | none => some (carried source members pairs) := by
  induction pairs with
  | nil => rfl
  | cons pair rest induction =>
      rw [List.map_cons, declared?, induction]
      cases found : find? members (pair.on source) with
      | some value =>
          rw [missing?_cons_of_found found, carried_cons_of_found found]
          simp only [rule, found]
          cases missing? source members rest <;> rfl
      | none =>
          rw [missing?_cons_of_absent found, carried_cons_of_absent found]
          simp only [rule, found]
          show (if pair.isOptional = true then _ else _) = _
          cases pair.isOptional <;> rfl

/-- Beside the rules of a key map the kept members stay, unless one collides. -/
theorem undeclared?_rule (map : KeyMap) (source : Side) (members : List (String × Value)) :
    undeclared? (map.pairs.map (rule source)) some members =
      match map.collision? source members with
      | some _ => none
      | none => some (map.kept source members) := by
  induction members with
  | nil => rfl
  | cons member rest induction =>
      obtain ⟨key, value⟩ := member
      simp only [undeclared?, readNames_rule, writeNames_rule, ← declares_iff, induction]
      cases declared : map.declares key source with
      | true =>
          rw [collision?_cons_of_declared declared, kept_cons_of_declared declared]
          rfl
      | false =>
          rw [collision?_cons_of_undeclared declared, kept_cons_of_undeclared declared]
          cases map.declares key source.opposite with
          | true => rfl
          | false => cases map.collision? source rest <;> rfl

/-- Without regard to errors, carrying an object over translates its members. -/
theorem toOption_carry_object (map : KeyMap) (source : Side) (members : List (String × Value)) :
    (map.carry source (.object members)).toOption =
      (translate? (map.pairs.map (rule source)) (keepingOthers map.isOpen) members).map
        fun outputs => .object (ofList outputs) := by
  rw [carry_object, translate?, declared?_rule]
  cases missing? source members map.pairs with
  | some pair => rfl
  | none =>
      cases map.isOpen with
      | false => simp [keepingOthers, others?, Except.toOption]
      | true =>
          simp only [keepingOthers, if_true, others?, undeclared?_rule]
          cases map.collision? source members <;> rfl

end WireSchema.KeyMap

import WireSchema.Proofs.Items
import WireSchema.Proofs.Members.Translation

/-! # Translations seen through a view

A value may be changed before it is translated. As far as a **view** of the outputs shows, this
makes no difference to the members of an object or to the items of an array when it makes none to
what becomes of each of them: also in that a translation that fails fails with the change as
without. -/

namespace WireSchema

/-! ## (1) Two parts -/

section Parts

variable {α β γ α' β' γ' : Type} {f : α → α'} {g : β → β'} {h : γ → γ'} {join : α → β → γ}
  {first changedFirst : Option α} {second changedSecond : Option β}

/-- Two parts that show the same as before make together what shows the same as before. -/
theorem map_bind_bind_alike (firstAlike : changedFirst.map f = first.map f)
    (secondAlike : changedSecond.map g = second.map g)
    (shows : ∀ {left left' right right'}, f left = f left' → g right = g right' →
      h (join left right) = h (join left' right')) :
    (changedFirst.bind fun left => changedSecond.bind fun right => some (join left right)).map h =
      (first.bind fun left => second.bind fun right => some (join left right)).map h := by
  cases changedFirst with
  | none => rw [Option.map_eq_none_iff.mp firstAlike.symm, Option.bind_none, Option.bind_none]
  | some left' =>
      obtain ⟨left, rfl, same⟩ := Option.map_eq_some_iff.mp firstAlike.symm
      cases changedSecond with
      | none => rw [Option.map_eq_none_iff.mp secondAlike.symm]; rfl
      | some right' =>
          obtain ⟨right, rfl, sameSecond⟩ := Option.map_eq_some_iff.mp secondAlike.symm
          exact congrArg some (shows same.symm sameSecond.symm)

end Parts

variable {α β γ : Type} {change : α → α} {view : β → γ}

/-! ## (2) Members -/

namespace Members

/-- Members look alike if their first entries and the rest do. -/
theorem mapValues_cons_congr {name : String} {left left' : β} {right right' : List (String × β)}
    (same : view left = view left')
    (sameRest : mapValues (fun _ => view) right = mapValues (fun _ => view) right') :
    mapValues (fun _ => view) ((name, left) :: right) =
      mapValues (fun _ => view) ((name, left') :: right') := by
  rw [mapValues_cons, mapValues_cons, same, sameRest]

/-- Declared members look alike, whether their values are changed first or not, if each rule gives
values that do. -/
theorem declared?_mapValues {members : List (String × α)} {rules : List (Rule α β)}
    (alike : ∀ rule ∈ rules, ∀ value, find? members rule.read = some value →
      (rule.part (change value)).map view = (rule.part value).map view) :
    (declared? (mapValues (fun _ => change) members) rules).map (mapValues fun _ => view) =
      (declared? members rules).map (mapValues fun _ => view) := by
  induction rules with
  | nil => rfl
  | cons rule rest induction =>
      rw [List.forall_mem_cons] at alike
      have later := induction alike.2
      -- the change keeps keys, so a rule finds its member before and after
      rw [declared?, declared?, find?_mapValues]
      cases found : find? members rule.read with
      | some value => exact map_bind_bind_alike (alike.1 value found) later mapValues_cons_congr
      | none =>
          rw [Option.map_none]
          cases rule.isOptional with
          | true => exact later
          | false => rfl

/-- Undeclared members look alike, whether their values are changed first or not, if the open part
gives values that do. -/
theorem undeclared?_mapValues {rules : List (Rule α β)} {part : α → Option β}
    {members : List (String × α)}
    (alike : ∀ member ∈ members, member.1 ∉ readNames rules →
      (part (change member.2)).map view = (part member.2).map view) :
    (undeclared? rules part (mapValues (fun _ => change) members)).map (mapValues fun _ => view) =
      (undeclared? rules part members).map (mapValues fun _ => view) := by
  induction members with
  | nil => rfl
  | cons member rest induction =>
      rw [List.forall_mem_cons] at alike
      have later := induction alike.2
      rw [mapValues_cons, undeclared?, undeclared?]
      by_cases read : member.1 ∈ readNames rules
      · rw [if_pos read, if_pos read, later]
      · rw [if_neg read, if_neg read]
        by_cases written : member.1 ∈ writeNames rules
        · rw [if_pos written, if_pos written]
        · rw [if_neg written, if_neg written]
          exact map_bind_bind_alike (alike.1 read) later mapValues_cons_congr

/-- **Members translate alike** before and after a change, as far as the view shows, when each
declared value does, and each of the others where they are kept. -/
theorem translate?_mapValues {rules : List (Rule α β)} {open? : Option (α → Option β)}
    {members : List (String × α)}
    (declaredAlike : ∀ rule ∈ rules, ∀ value, find? members rule.read = some value →
      (rule.part (change value)).map view = (rule.part value).map view)
    (othersAlike : ∀ part ∈ open?, ∀ member ∈ members, member.1 ∉ readNames rules →
      (part (change member.2)).map view = (part member.2).map view) :
    (translate? rules open? (mapValues (fun _ => change) members)).map (mapValues fun _ => view) =
      (translate? rules open? members).map (mapValues fun _ => view) := by
  have others : (others? rules open? (mapValues (fun _ => change) members)).map
      (mapValues fun _ => view) = (others? rules open? members).map (mapValues fun _ => view) := by
    cases open? with
    | none => rfl
    | some part => exact undeclared?_mapValues (othersAlike part rfl)
  refine map_bind_bind_alike (declared?_mapValues declaredAlike) others ?_
  intro left left' right right' same sameOthers
  rw [mapValues_append, mapValues_append, same, sameOthers]

end Members

/-! ## (3) Items -/

/-- **Items translate alike** before and after a change, as far as the view shows, when each of them
does at its position. -/
theorem Items.translate?_map {part : Nat → α → Option β} {items : List α}
    (alike : ∀ position item, items[position]? = some item →
      (part position (change item)).map view = (part position item).map view) :
    (translate? part (items.map change)).map (List.map view) =
      (translate? part items).map (List.map view) := by
  induction items generalizing part with
  | nil => rfl
  | cons item rest induction =>
      have later : (translate? (fun offset => part (offset + 1)) (rest.map change)).map
          (List.map view) = (translate? (fun offset => part (offset + 1)) rest).map
            (List.map view) := induction fun position => alike (position + 1)
      refine map_bind_bind_alike (alike 0 item rfl) later ?_
      intro left left' right right' same sameRest
      rw [List.map_cons, List.map_cons, same, sameRest]

end WireSchema

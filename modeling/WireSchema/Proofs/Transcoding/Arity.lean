import WireSchema.Proofs.Transcoding.Outcome

/-! # How many items a tuple takes

A tuple takes as many items as it has required elements, and without a rest type no more than it has
elements. Items go to elements by their positions, so that the required elements all have an item
(`IsFilled`) whenever they stand in front of the optional ones (`isFilled_iff`). A tuple in which
one of them stands behind an optional element also takes arrays that end before it
(`admitsArity_not_isFilled`). -/

namespace WireSchema.Schema

/-! ## (1) Required elements and their items -/

/-- **The required elements are filled** by a number of items: each of them has an item at its own
position. -/
def IsFilled (elements : List (Element Schema)) (count : Nat) : Prop :=
  ∀ position element, elements[position]? = some element → element.isOptional = false →
    position < count

/-- No required element stands behind an optional one. -/
def RequiredFirst (elements : List (Element Schema)) : Prop :=
  elements.Pairwise fun earlier later => later.isOptional = false → earlier.isOptional = false

section Required

variable {element : Element Schema} {elements : List (Element Schema)} {count : Nat}

/-- A required element in front counts. -/
theorem requiredCount_cons_of_required (required : element.isOptional = false) :
    requiredCount (element :: elements) = requiredCount elements + 1 := by
  simp [requiredCount, required]

/-- An optional element in front does not count. -/
theorem requiredCount_cons_of_optional (optional : element.isOptional = true) :
    requiredCount (element :: elements) = requiredCount elements := by
  simp [requiredCount, optional]

/-- The first element takes the first item, and the others take what is behind it. -/
theorem isFilled_cons_iff :
    IsFilled (element :: elements) count ↔
      (element.isOptional = false → 0 < count) ∧ IsFilled elements (count - 1) := by
  constructor
  · intro filled
    refine ⟨filled 0 element rfl, fun position other found required => ?_⟩
    have within := filled (position + 1) other found required
    omega
  · rintro ⟨first, later⟩ (_ | position) other found required
    · cases found
      exact first required
    · have within := later position other found required
      omega

/-- Where the required elements are filled, there are as many items as they are. -/
theorem requiredCount_le_of_isFilled (filled : IsFilled elements count) :
    requiredCount elements ≤ count := by
  induction elements generalizing count with
  | nil => exact Nat.zero_le count
  | cons element elements induction =>
      obtain ⟨first, later⟩ := isFilled_cons_iff.mp filled
      have others := induction later
      cases kind : element.isOptional with
      | true =>
          rw [requiredCount_cons_of_optional kind]
          omega
      | false =>
          have positive := first kind
          rw [requiredCount_cons_of_required kind]
          omega

/-- Optional elements ask for no item. -/
theorem isFilled_of_optional (optional : ∀ element ∈ elements, element.isOptional = true)
    (count : Nat) : IsFilled elements count := by
  intro position element found required
  rw [optional element (List.mem_of_getElem? found)] at required
  cases required

/-- As many items as there are required elements fill them, if these come first. -/
theorem RequiredFirst.isFilled (first : RequiredFirst elements)
    (enough : requiredCount elements ≤ count) : IsFilled elements count := by
  induction elements generalizing count with
  | nil => exact isFilled_of_optional (by simp) count
  | cons element elements induction =>
      obtain ⟨behind, later⟩ := List.pairwise_cons.mp first
      rw [isFilled_cons_iff]
      cases kind : element.isOptional with
      | false =>
          rw [requiredCount_cons_of_required kind] at enough
          exact ⟨fun _ => by omega, induction later (by omega)⟩
      | true =>
          -- behind an optional element all are optional
          refine ⟨nofun, isFilled_of_optional (fun other held => ?_) _⟩
          cases otherKind : other.isOptional with
          | true => rfl
          | false => exact absurd (kind.symm.trans (behind other held otherKind)) (by decide)

/-- **Counting items is looking at positions** where the required elements come first. -/
theorem RequiredFirst.isFilled_iff (first : RequiredFirst elements) :
    IsFilled elements count ↔ requiredCount elements ≤ count :=
  ⟨requiredCount_le_of_isFilled, first.isFilled⟩

/-- Where as many items as there are required elements fill them, these come first. -/
theorem requiredFirst_of_isFilled (filled : IsFilled elements (requiredCount elements)) :
    RequiredFirst elements := by
  induction elements with
  | nil => exact .nil
  | cons element elements induction =>
      obtain ⟨_, later⟩ := isFilled_cons_iff.mp filled
      cases kind : element.isOptional with
      | false =>
          rw [requiredCount_cons_of_required kind, Nat.add_sub_cancel] at later
          exact .cons (fun _ _ _ => kind) (induction later)
      | true =>
          -- the others are filled with one item less than they ask for, so that they ask for none
          rw [requiredCount_cons_of_optional kind] at later
          have none : requiredCount elements = 0 := by
            have enough := requiredCount_le_of_isFilled later
            omega
          rw [none] at later
          refine .cons (fun other held required => ?_) (induction ?_)
          · obtain ⟨position, found⟩ := List.getElem?_of_mem held
            exact absurd (later position other found required) (Nat.not_lt_zero position)
          · rw [none]
            exact later

end Required

/-! ## (2) Arrays -/

section Arrays

variable {direction : Direction} {elements : List (Element Schema)} {rest : Option Schema}
  {items : List Value}

/-- A length is admitted exactly if it is at least the number of required elements and, without a
rest, at most that of all elements. -/
theorem admitsArity_iff {count : Nat} :
    admitsArity elements rest.isSome count = true ↔
      requiredCount elements ≤ count ∧ (rest = none → count ≤ elements.length) := by
  rw [admitsArity, Bool.and_eq_true, decide_eq_true_eq]
  cases rest <;> simp

/-- A tuple with a required element behind an optional one admits a length at which not all required
elements are filled. -/
theorem admitsArity_not_isFilled (hasRest : Bool) (unordered : ¬RequiredFirst elements) :
    admitsArity elements hasRest (requiredCount elements) = true ∧
      ¬IsFilled elements (requiredCount elements) := by
  refine ⟨?_, fun filled => unordered (requiredFirst_of_isFilled filled)⟩
  have few : requiredCount elements ≤ elements.length := List.length_filter_le _ elements
  simp [admitsArity, few]

/-- An array of a length that the tuple does not admit is rejected for its length. -/
theorem transcode_tuple_of_not_admitsArity (isReadonly : Bool)
    (rejected : ¬admitsArity elements rest.isSome items.length = true) :
    (Schema.tuple elements rest isReadonly).transcode direction (.array items) =
      .error ⟨"", .wrongArity
        (arityText (requiredCount elements) elements.length rest.isSome) items.length⟩ := by
  rw [transcode, transcodeAt_tuple, if_neg rejected]

/-- An array of a length that the tuple admits goes through when its items do, each through the type
of its slot. -/
theorem exists_transcode_tuple (isReadonly : Bool)
    (admitted : admitsArity elements rest.isSome items.length = true)
    (eachGoes : ∀ position item, items[position]? = some item → ∃ output,
      (slotType elements rest position).transcode direction item = .ok output) :
    ∃ outputs,
      (Schema.tuple elements rest isReadonly).transcode direction (.array items) =
        .ok (.array outputs) ∧
      outputs.length = items.length ∧
      ∀ position item, items[position]? = some item → ∃ output,
        (slotType elements rest position).transcode direction item = .ok output ∧
          outputs[position]? = some output := by
  -- without regard to errors, the run of a tuple is a translation of its items
  have each : ∀ position item, items[position]? = some item →
      ((slotType elements rest position).outcome? direction item).isSome := by
    intro position item found
    obtain ⟨output, goes⟩ := eachGoes position item found
    rw [outcome?, toOption_eq_some_iff.mpr goes]
    rfl
  obtain ⟨outputs, translated⟩ :=
    Option.isSome_iff_exists.mp ((Items.translate?_isSome_iff _ items).mpr each)
  refine ⟨outputs, ?_, Items.length_translate? translated, fun position item found => ?_⟩
  · rw [← toOption_eq_some_iff]
    show (Schema.tuple elements rest isReadonly).outcome? direction (.array items) = _
    rw [outcome?_tuple, tupleOutcome?, if_pos admitted, translated]
    rfl
  · obtain ⟨output, goes⟩ := eachGoes position item found
    refine ⟨output, goes, ?_⟩
    rw [Items.getElem?_translate? translated, found, Option.bind_some, outcome?,
      toOption_eq_some_iff.mpr goes]

/-- **A tuple takes an array whose items go through** exactly when there are as many of them as
required elements and, without a rest type, no more than elements; if the required elements come
first, this is when each of them has an item at its own position. What is taken becomes an array of
the same length, item by item; all else is rejected for its length. -/
theorem transcode_tuple_iff (isReadonly : Bool)
    (eachGoes : ∀ position item, items[position]? = some item → ∃ output,
      (slotType elements rest position).transcode direction item = .ok output) :
    ((∃ output, (Schema.tuple elements rest isReadonly).transcode direction (.array items) =
        .ok output) ↔
      requiredCount elements ≤ items.length ∧
        (rest = none → items.length ≤ elements.length)) ∧
    (RequiredFirst elements →
      ((∃ output, (Schema.tuple elements rest isReadonly).transcode direction (.array items) =
          .ok output) ↔
        IsFilled elements items.length ∧ (rest = none → items.length ≤ elements.length))) ∧
    ((∃ outputs,
        (Schema.tuple elements rest isReadonly).transcode direction (.array items) =
          .ok (.array outputs) ∧
        outputs.length = items.length ∧
        ∀ position item, items[position]? = some item → ∃ output,
          (slotType elements rest position).transcode direction item = .ok output ∧
            outputs[position]? = some output) ∨
      (Schema.tuple elements rest isReadonly).transcode direction (.array items) =
        .error ⟨"", .wrongArity
          (arityText (requiredCount elements) elements.length rest.isSome) items.length⟩) := by
  -- each item goes through, so only the number of items decides
  have taken : (∃ output, (Schema.tuple elements rest isReadonly).transcode direction
      (.array items) = .ok output) ↔ admitsArity elements rest.isSome items.length = true := by
    constructor
    · rintro ⟨output, goes⟩
      by_contra rejected
      rw [transcode_tuple_of_not_admitsArity isReadonly rejected] at goes
      cases goes
    · intro admitted
      obtain ⟨outputs, goes, _⟩ := exists_transcode_tuple isReadonly admitted eachGoes
      exact ⟨_, goes⟩
  refine ⟨taken.trans admitsArity_iff, fun first => ?_, ?_⟩
  · rw [taken, admitsArity_iff, first.isFilled_iff]
  · by_cases admitted : admitsArity elements rest.isSome items.length = true
    · exact Or.inl (exists_transcode_tuple isReadonly admitted eachGoes)
    · exact Or.inr (transcode_tuple_of_not_admitsArity isReadonly admitted)

/-- A pair of which the second part may be left out takes the first part alone. -/
theorem transcode_tuple_iff_pair :
    let pair : List (Element Schema) := [⟨booleanText "Y" "N", false⟩, ⟨timestampText, true⟩]
    RequiredFirst pair ∧
      ((∃ output, (Schema.tuple pair none false).transcode .decode (.array [.string "N"]) =
          .ok output) ↔ IsFilled pair 1 ∧ ((none : Option Schema) = none → 1 ≤ pair.length)) ∧
      (Schema.tuple pair none false).transcode .decode (.array [.string "N"]) =
        .ok (.array [.bool false]) := by
  intro pair
  have first : RequiredFirst pair := by simp [pair, RequiredFirst]
  have eachGoes : ∀ position item, [Value.string "N"][position]? = some item → ∃ output,
      (slotType pair none position).transcode .decode item = .ok output := by
    rintro (_ | position) item ⟨⟩
    exact ⟨.bool false, rfl⟩
  exact ⟨first, (transcode_tuple_iff false eachGoes).2.1 first, rfl⟩

/-- A tuple with a required element behind an optional one takes an array that ends before the
required one, in both directions. -/
theorem exists_admitted_unfilled :
    let pair : List (Element Schema) := [⟨unknown, true⟩, ⟨unknown, false⟩]
    ¬IsFilled pair 1 ∧
      (Schema.tuple pair none false).decode (.array [.null]) = .ok (.array [.null]) ∧
      (Schema.tuple pair none false).encode (.array [.null]) = .ok (.array [.null]) := by
  intro pair
  refine ⟨fun filled => ?_, rfl, rfl⟩
  exact absurd (filled 1 ⟨unknown, false⟩ rfl rfl) (by decide)

end Arrays

end WireSchema.Schema

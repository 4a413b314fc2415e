import Mathlib.Logic.Basic
import WireSchema.TranscodingError

/-! # Runs

Runs that may fail, and when two of them agree. A run **agrees** with an expected outcome when it
gives that outcome, where all failures count as one; it agrees **unless** certain errors occur when
a failure with such an error is excused. Agreement is compatible with running one thing after
another. So is matching: two runs **match** when they fail alike or give related outcomes. -/

namespace WireSchema

/-- A pure run succeeds with its value. -/
theorem pure_eq_ok_iff {ε α : Type} {value result : α} :
    (pure value : Except ε α) = .ok result ↔ value = result := ⟨Except.ok.inj, congrArg Except.ok⟩

/-- A run behind a successful one goes on with its value. -/
theorem ok_bind {ε α β : Type} (value : α) (next : α → Except ε β) :
    (Except.ok value >>= next) = next value := rfl

/-- One thing after another succeeds exactly when each of them does. -/
theorem bind_eq_ok_iff {ε α β : Type} {actual : Except ε α} {next : α → Except ε β} {result : β} :
    actual >>= next = .ok result ↔ ∃ value, actual = .ok value ∧ next value = .ok result := by
  cases actual with
  | error error => exact ⟨nofun, nofun⟩
  | ok value =>
      constructor
      · intro succeeds
        exact ⟨value, rfl, succeeds⟩
      · rintro ⟨_, ⟨⟩, succeeds⟩
        exact succeeds

/-- One thing after another fails exactly when one of them does. -/
theorem bind_eq_error_iff {ε α β : Type} {actual : Except ε α} {next : α → Except ε β} {error : ε} :
    actual >>= next = .error error ↔
      actual = .error error ∨ ∃ value, actual = .ok value ∧ next value = .error error := by
  cases actual with
  | error other =>
      constructor
      · rintro ⟨⟩
        exact Or.inl rfl
      · rintro (⟨⟨⟩⟩ | ⟨_, succeeds, _⟩)
        · rfl
        · cases succeeds
  | ok value =>
      constructor
      · intro fails
        exact Or.inr ⟨value, rfl, fails⟩
      · rintro (fails | ⟨_, ⟨⟩, fails⟩)
        · cases fails
        · exact fails

/-- A changed run succeeds exactly with the changed values. -/
theorem map_eq_ok_iff {ε α β : Type} {actual : Except ε α} {change : α → β} {result : β} :
    actual.map change = .ok result ↔ ∃ value, actual = .ok value ∧ change value = result := by
  cases actual <;> simp [Except.map]

/-- Changing what a run gives keeps its errors. -/
theorem map_eq_error_iff {ε α β : Type} {actual : Except ε α} {change : α → β} {error : ε} :
    actual.map change = .error error ↔ actual = .error error := by
  cases actual <;> simp [Except.map]

/-- Changing the errors of a run keeps what it gives. -/
theorem mapError_eq_ok_iff {ε δ α : Type} {actual : Except ε α} {change : ε → δ} {result : α} :
    actual.mapError change = .ok result ↔ actual = .ok result := by
  cases actual with
  | error error => exact ⟨nofun, nofun⟩
  | ok value =>
      constructor
      · rintro ⟨⟩
        rfl
      · rintro ⟨⟩
        rfl

/-- A run with changed errors fails exactly with the changed ones. -/
theorem mapError_eq_error_iff {ε δ α : Type} {actual : Except ε α} {change : ε → δ} {error : δ} :
    actual.mapError change = .error error ↔
      ∃ inner, actual = .error inner ∧ change inner = error := by
  cases actual with
  | error inner =>
      constructor
      · rintro ⟨⟩
        exact ⟨inner, rfl, rfl⟩
      · rintro ⟨_, ⟨⟩, rfl⟩
        rfl
  | ok value => exact ⟨nofun, nofun⟩

/-- A run succeeds exactly when it has an outcome. -/
theorem toOption_eq_some_iff {ε α : Type} {actual : Except ε α} {result : α} :
    actual.toOption = some result ↔ actual = .ok result := by
  cases actual <;> simp [Except.toOption]

/-- Without regard to errors, a run behind another one is bound as an option. -/
theorem toOption_bind {ε α β : Type} (actual : Except ε α) (next : α → Except ε β) :
    (actual >>= next).toOption = actual.toOption.bind fun value => (next value).toOption := by
  cases actual <;> rfl

/-- Without regard to errors, changing them changes nothing. -/
theorem toOption_mapError {ε δ α : Type} (actual : Except ε α) (change : ε → δ) :
    (actual.mapError change).toOption = actual.toOption := by
  cases actual <;> rfl

/-- The error of a run, if it fails. -/
def error? {ε α : Type} : Except ε α → Option ε
  | .ok _ => none
  | .error error => some error

/-- The error of a run is the one that it fails with. -/
theorem error?_eq_some_iff {ε α : Type} {actual : Except ε α} {error : ε} :
    error? actual = some error ↔ actual = .error error := by
  cases actual <;> simp [error?]

/-- Of one thing after another the first error counts, where the error of the later thing does not
depend on the outcome of the first. -/
theorem error?_bind {ε α β : Type} {actual : Except ε α} {next : α → Except ε β}
    {later : Option ε} (alike : ∀ value, error? (next value) = later) :
    error? (actual >>= next) = (error? actual).or later := by
  cases actual with
  | error error => rfl
  | ok value => exact alike value

/-- What is made of an outcome at the end raises no error. -/
theorem error?_bind_pure {ε α β : Type} (actual : Except ε α) (result : α → β) :
    error? (actual >>= fun value => pure (result value)) = error? actual := by
  cases actual <;> rfl

/-- An error raised at the root of a part is at the place of the part. -/
theorem TranscodingError.anchored_root (path : String) (cause : TranscodingError.Cause) :
    (⟨"", cause⟩ : TranscodingError).anchored path = ⟨path, cause⟩ := by
  simp [anchored]

/-- What is said of the root of a part is said of the place of the part. -/
theorem TranscodingError.path_anchored_of_root {error : TranscodingError} (atRoot : error.path = "")
    (path : String) : (error.anchored path).path = path := by
  rw [anchored, atRoot, String.append_empty]

/-- A run gives what is expected of it, unless it fails with an excused error. -/
def AgreesUnless {α : Type} (excused : TranscodingError → Prop)
    (actual : Except TranscodingError α) (expected : Option α) : Prop :=
  (∃ error, actual = .error error ∧ excused error) ∨ actual.toOption = expected

namespace AgreesUnless

variable {α β : Type} {excused : TranscodingError → Prop}

/-- A success agrees with what is expected to be its value. -/
theorem ok (value : α) : AgreesUnless excused (.ok value) (some value) := Or.inr rfl

/-- A failure agrees with expecting nothing. -/
theorem error (error : TranscodingError) :
    AgreesUnless excused (.error error : Except TranscodingError α) none := Or.inr rfl

/-- One thing after another agrees with what is expected of both. -/
theorem bind {actual : Except TranscodingError α} {expected : Option α}
    {next : α → Except TranscodingError β} {nextExpected : α → Option β}
    (first : AgreesUnless excused actual expected)
    (later : ∀ value, expected = some value →
      AgreesUnless excused (next value) (nextExpected value)) :
    AgreesUnless excused (actual >>= next) (expected.bind nextExpected) := by
  rcases first with ⟨error, rfl, isExcused⟩ | rfl
  · exact Or.inl ⟨error, rfl, isExcused⟩
  · cases actual with
    | error error => exact .error error
    | ok value => exact later value rfl

/-- Runs that agree with what is expected agree when both are changed alike. -/
theorem map (change : α → β) {actual : Except TranscodingError α} {expected : Option α}
    (agrees : AgreesUnless excused actual expected) :
    AgreesUnless excused (actual.map change) (expected.map change) := by
  rcases agrees with ⟨error, rfl, isExcused⟩ | rfl
  · exact Or.inl ⟨error, rfl, isExcused⟩
  · cases actual with
    | error error => exact .error error
    | ok value => exact .ok (change value)

/-- Anchoring changes no outcome, and no error that is excused wherever it occurs. -/
theorem mapError_anchored (path : String) {actual : Except TranscodingError α} {expected : Option α}
    (anywhere : ∀ error, excused error → excused (error.anchored path))
    (agrees : AgreesUnless excused actual expected) :
    AgreesUnless excused (actual.mapError (·.anchored path)) expected := by
  rcases agrees with ⟨error, rfl, isExcused⟩ | rfl
  · -- the error is another one now, but still an excused one
    exact Or.inl ⟨_, rfl, anywhere error isExcused⟩
  · cases actual with
    | error error => exact .error _
    | ok value => exact .ok value

/-- Every run agrees with its own outcome. -/
theorem refl (actual : Except TranscodingError α) :
    AgreesUnless excused actual actual.toOption := Or.inr rfl

/-- Agreement without any excuse is equality of outcomes. -/
theorem toOption_eq {actual : Except TranscodingError α} {expected : Option α}
    (agrees : AgreesUnless (fun _ => False) actual expected) : actual.toOption = expected := by
  rcases agrees with ⟨error, _, isExcused⟩ | same
  · exact isExcused.elim
  · exact same

/-- Where outcomes are equal, there is agreement whatever is excused. -/
theorem of_toOption_eq {actual : Except TranscodingError α} {expected : Option α}
    (same : actual.toOption = expected) : AgreesUnless excused actual expected := Or.inr same

end AgreesUnless

/-- A run follows another one when it gives what that one gives, changed, and fails with its error,
unless it fails with an excused error. -/
def FollowsUnless {α β : Type} (excused : TranscodingError → Prop) (change : α → β)
    (actual : Except TranscodingError β) (expected : Except TranscodingError α) : Prop :=
  (∃ error, actual = .error error ∧ excused error) ∨ actual = expected.map change

namespace FollowsUnless

variable {α β γ δ : Type} {excused : TranscodingError → Prop} {change : α → β} {later : γ → δ}

/-- A success follows the success that it changes. -/
theorem ok (value : α) : FollowsUnless excused change (.ok (change value)) (.ok value) :=
  Or.inr rfl

/-- A failure follows a failure with the same error. -/
theorem error (error : TranscodingError) :
    FollowsUnless excused change (.error error) (.error error) := Or.inr rfl

/-- A run follows itself. -/
theorem refl (actual : Except TranscodingError α) : FollowsUnless excused id actual actual := by
  cases actual with
  | error error => exact .error error
  | ok value => exact .ok value

/-- One thing after another follows what both follow. -/
theorem bind {actual : Except TranscodingError β} {expected : Except TranscodingError α}
    {next : β → Except TranscodingError δ} {nextExpected : α → Except TranscodingError γ}
    (first : FollowsUnless excused change actual expected)
    (second : ∀ value, expected = .ok value →
      FollowsUnless excused later (next (change value)) (nextExpected value)) :
    FollowsUnless excused later (actual >>= next) (expected >>= nextExpected) := by
  rcases first with ⟨error, rfl, isExcused⟩ | rfl
  · exact Or.inl ⟨error, rfl, isExcused⟩
  · cases expected with
    | error error => exact .error error
    | ok value => exact second value rfl

/-- What follows a run still follows it when both are changed along. -/
theorem map {actual : Except TranscodingError β} {expected : Except TranscodingError α}
    (first : β → δ) (second : α → γ) (compatible : ∀ value, first (change value) =
      later (second value)) (follows : FollowsUnless excused change actual expected) :
    FollowsUnless excused later (actual.map first) (expected.map second) := by
  rcases follows with ⟨error, rfl, isExcused⟩ | rfl
  · exact Or.inl ⟨error, rfl, isExcused⟩
  · cases expected with
    | error error => exact .error error
    | ok value => exact Or.inr (congrArg Except.ok (compatible value))

end FollowsUnless

/-- **Two runs match** when both give outcomes, which are related, or both fail with one error. -/
inductive MatchBy {ε α β : Type} (same : α → β → Prop) : Except ε α → Except ε β → Prop
  /-- Both succeed. -/
  | ok {left : α} {right : β} (related : same left right) : MatchBy same (.ok left) (.ok right)
  /-- Both fail. -/
  | error (error : ε) : MatchBy same (.error error) (.error error)

namespace MatchBy

variable {ε δ α β γ η : Type} {same : α → β → Prop} {later : γ → η → Prop}
  {left : Except ε α} {right : Except ε β}

/-- Runs whose outcomes have to be equal are equal. -/
theorem eq {left right : Except ε α} (matched : MatchBy Eq left right) : left = right := by
  cases matched with
  | ok related => rw [related]
  | error error => rfl

/-- Every run matches itself where all outcomes are related to themselves. -/
theorem refl {same : α → α → Prop} (reflexive : ∀ value, same value value) (run : Except ε α) :
    MatchBy same run run := by
  cases run with
  | ok value => exact .ok (reflexive value)
  | error error => exact .error error

/-- Runs that match by one relation match by any that follows from it. -/
theorem imp {other : α → β → Prop} (weaker : ∀ left right, same left right → other left right)
    (matched : MatchBy same left right) : MatchBy other left right := by
  cases matched with
  | ok related => exact .ok (weaker _ _ related)
  | error error => exact .error error

/-- One thing after another matches when both do. -/
theorem bind {leftNext : α → Except ε γ} {rightNext : β → Except ε η}
    (first : MatchBy same left right)
    (second : ∀ leftValue rightValue, same leftValue rightValue →
      MatchBy later (leftNext leftValue) (rightNext rightValue)) :
    MatchBy later (left >>= leftNext) (right >>= rightNext) := by
  cases first with
  | ok related => exact second _ _ related
  | error error => exact .error error

/-- Runs that match do so when they are changed in a way that keeps them related. -/
theorem map {leftChange : α → γ} {rightChange : β → η} (matched : MatchBy same left right)
    (changes : ∀ leftValue rightValue, same leftValue rightValue →
      later (leftChange leftValue) (rightChange rightValue)) :
    MatchBy later (left.map leftChange) (right.map rightChange) := by
  cases matched with
  | ok related => exact .ok (changes _ _ related)
  | error error => exact .error error

/-- Runs that match do so when their errors are changed alike. -/
theorem mapError (change : ε → δ) (matched : MatchBy same left right) :
    MatchBy same (left.mapError change) (right.mapError change) := by
  cases matched with
  | ok related => exact .ok related
  | error error => exact .error (change error)

/-- Without regard to errors, runs that match have related outcomes. -/
theorem toOption (matched : MatchBy same left right) :
    Option.Rel same left.toOption right.toOption := by
  cases matched with
  | ok related => exact .some related
  | error error => exact .none

end MatchBy

end WireSchema

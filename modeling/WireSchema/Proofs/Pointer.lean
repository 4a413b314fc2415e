import WireSchema.Json.Pointer
import WireSchema.Proofs.Decimal

/-! # Pointers read back

A pointer that has been built from the root segment by segment is read back as these segments,
whatever characters they hold (`segments?_extend`), and the segment of an array position is read as
that position (`index?_position`). -/

namespace WireSchema.Pointer

/-! ## (1) Segments as texts -/

/-- What does not start an escape stands for itself. -/
theorem unescape_cons {c : Char} (plain : c ≠ '~') (rest : List Char) :
    unescape (c :: rest) = c :: unescape rest := by
  rw [unescape]
  · rintro _ rfl
    exact absurd rfl plain
  · rintro _ rfl
    exact absurd rfl plain

/-- What is written for a character is read as this character. -/
theorem unescape_escapeChar_append (c : Char) (rest : List Char) :
    unescape (escapeChar c ++ rest) = c :: unescape rest := by
  by_cases tilde : c = '~'
  · subst tilde
    rfl
  · by_cases slash : c = '/'
    · subst slash
      rfl
    · rw [escapeChar, if_neg tilde, if_neg slash]
      exact unescape_cons tilde rest

/-- What is written for a segment is read as this segment. -/
theorem unescape_escape (segment : String) : unescape (escape segment) = segment.toList := by
  rw [escape]
  induction segment.toList with
  | nil => rfl
  | cons c rest induction => rw [List.flatMap_cons, unescape_escapeChar_append, induction]

/-- A segment is written without slashes. -/
theorem slash_notMem_escape (segment : String) : '/' ∉ escape segment := by
  rw [escape, List.mem_flatMap]
  rintro ⟨c, _, held⟩
  -- a slash is written with a tilde, and no other character with a slash
  by_cases tilde : c = '~'
  · subst tilde
    simp [escapeChar] at held
  · by_cases slash : c = '/'
    · subst slash
      simp [escapeChar] at held
    · rw [escapeChar, if_neg tilde, if_neg slash, List.mem_singleton] at held
      exact slash held.symm

/-! ## (2) Lists of segments -/

/-- **The pointer** to what a list of segments leads to from the place that `path` points to. -/
def extend (path : String) (segments : List String) : String := segments.foldl child path

@[simp] theorem extend_nil (path : String) : extend path [] = path := rfl

@[simp] theorem extend_cons (path segment : String) (rest : List String) :
    extend path (segment :: rest) = extend (child path segment) rest := rfl

/-- A pointer is extended by its escaped segments, each behind a slash. -/
theorem toList_extend (path : String) (segments : List String) :
    (extend path segments).toList =
      path.toList ++ segments.flatMap fun segment => '/' :: escape segment := by
  induction segments generalizing path with
  | nil => simp
  | cons segment rest induction => simp [induction, child]

/-- The parts between the slashes are the texts of the segments. -/
theorem splitWhere_escape (first : String) (rest : List String) :
    splitWhere (· == '/') (escape first ++ rest.flatMap fun segment => '/' :: escape segment) =
      (first :: rest).map escape := by
  -- the escaped segments hold none of the slashes that part them
  have free : ∀ segment, ∀ c ∈ escape segment, (c == '/') = false := by
    intro segment c held
    rw [beq_eq_false_iff_ne]
    rintro rfl
    exact slash_notMem_escape segment held
  induction rest generalizing first with
  | nil =>
      rw [List.flatMap_nil, List.append_nil]
      exact splitWhere_of_free (free first)
  | cons second rest induction =>
      rw [List.flatMap_cons, List.cons_append,
        splitWhere_append_cons (free first) (beq_self_eq_true _), induction]
      rfl

/-- **A pointer built from segments is read back** as these segments. -/
theorem segments?_extend (segments : List String) :
    segments? (extend "" segments) = some segments := by
  rw [segments?, toList_extend]
  cases segments with
  | nil => rfl
  | cons first rest =>
      have reads : ∀ segment, String.ofList (unescape (escape segment)) = segment := by
        intro segment
        rw [unescape_escape, String.ofList_toList]
      show some ((splitWhere (· == '/')
        (escape first ++ rest.flatMap fun segment => '/' :: escape segment)).map
          fun text => String.ofList (unescape text)) = _
      rw [splitWhere_escape, List.map_map]
      exact congrArg some (List.map_id'' reads _)

/-! ## (3) Positions -/

/-- **The segment of a position is read back** as this position. -/
theorem index?_position (index : Nat) : index? (position index) = some index := by
  rw [index?, position, String.toList_ofList]
  have spelled := Decimal.value_digits index
  have all : (Decimal.digits index).all Char.isDigit = true :=
    List.all_eq_true.mpr fun c held => Decimal.isDigit_of_mem_digits held
  rcases Nat.eq_zero_or_pos index with rfl | positive
  · rfl
  · have first := Decimal.head?_digits_ne_zero positive
    have some : Decimal.digits index ≠ [] := Nat.toDigits_ne_nil
    -- from here on only the first digit matters, and that all of them are digits
    generalize Decimal.digits index = digits at *
    split
    · exact absurd rfl some
    · exact absurd rfl first
    · exact absurd rfl first
    · rw [if_pos all, spelled]

/-- **A segment names a position** exactly when it is the segment of the position. -/
theorem index?_eq_some_iff {segment : String} {index : Nat} :
    index? segment = some index ↔ segment = position index := by
  constructor
  · intro names
    rw [index?] at names
    rw [position, ← String.toList_inj, String.toList_ofList]
    split at names
    · cases names
    · next zero =>
        cases names
        exact zero
    · cases names
    · next digits filled _ noZero =>
        split at names
        · next all =>
            cases names
            have first : segment.toList.head? ≠ some '0' := by
              intro zero
              obtain ⟨rest, shape⟩ := List.head?_eq_some_iff.mp zero
              exact noZero rest shape
            exact (Decimal.digits_value (List.all_eq_true.mp all) filled first).symm
        · cases names
  · rintro rfl
    exact index?_position index

/-! ## (4) Replacements -/

/-- A text in which each `old` is replaced by `new`. -/
def replaceChar (old : Char) (new text : List Char) : List Char :=
  text.flatMap fun c => if c = old then new else [c]

/-- A text in which, from left to right, each `first` with a `second` behind it is replaced by
`new`. -/
def replacePair (first second new : Char) : List Char → List Char
  | c :: d :: rest =>
      if c = first ∧ d = second then new :: replacePair first second new rest
      else c :: replacePair first second new (d :: rest)
  | rest => rest

/-- A segment is written by replacing first the tildes and then the slashes. -/
theorem escape_eq_replaceChar (segment : String) :
    escape segment =
      replaceChar '/' ['~', '1'] (replaceChar '~' ['~', '0'] segment.toList) := by
  rw [replaceChar, replaceChar, List.flatMap_assoc, escape]
  refine congrArg (List.flatMap · segment.toList) (funext fun c => ?_)
  by_cases tilde : c = '~'
  · subst tilde
    rfl
  · by_cases slash : c = '/'
    · subst slash
      rfl
    · simp [escapeChar, tilde, slash]

/-- A character that does not open the pair is left as it is. -/
theorem replacePair_cons_of_ne {first second new c : Char} (other : c ≠ first) (rest : List Char) :
    replacePair first second new (c :: rest) = c :: replacePair first second new rest := by
  cases rest with
  | nil => rfl
  | cons d rest => rw [replacePair, if_neg fun both => other both.1]

/-- What stands in front is kept, or is the new character. -/
theorem exists_replacePair_cons (first second new c : Char) (rest : List Char) :
    ∃ d behind, replacePair first second new (c :: rest) = d :: behind ∧ (d = c ∨ d = new) := by
  cases rest with
  | nil => exact ⟨c, [], rfl, Or.inl rfl⟩
  | cons d rest =>
      rw [replacePair]
      split
      · exact ⟨new, _, rfl, Or.inr rfl⟩
      · exact ⟨c, _, rfl, Or.inl rfl⟩

/-- A segment is read by replacing first what stands for slashes and then what stands for tildes. -/
theorem unescape_eq_replacePair (text : List Char) :
    unescape text = replacePair '~' '0' '~' (replacePair '~' '1' '/' text) := by
  induction text using unescape.induct with
  | case1 rest induction =>
      have slashes : replacePair '~' '1' '/' ('~' :: '1' :: rest) =
          '/' :: replacePair '~' '1' '/' rest := if_pos ⟨rfl, rfl⟩
      rw [unescape, induction, slashes, replacePair_cons_of_ne (by decide)]
  | case2 rest induction =>
      have slashes : replacePair '~' '1' '/' ('~' :: '0' :: rest) =
          '~' :: '0' :: replacePair '~' '1' '/' rest := by
        rw [replacePair, if_neg (by decide), replacePair_cons_of_ne (by decide)]
      have tildes : replacePair '~' '0' '~' ('~' :: '0' :: replacePair '~' '1' '/' rest) =
          '~' :: replacePair '~' '0' '~' (replacePair '~' '1' '/' rest) := if_pos ⟨rfl, rfl⟩
      rw [unescape, induction, slashes, tildes]
  | case3 c rest noSlash noTilde induction =>
      by_cases tilde : c = '~'
      · -- a tilde that starts no escape, also when the slashes behind it have been replaced
        subst tilde
        cases rest with
        | nil => rfl
        | cons d rest =>
            have notOne : d ≠ '1' := fun one => noSlash rest rfl (one ▸ rfl)
            have notZero : d ≠ '0' := fun zero => noTilde rest rfl (zero ▸ rfl)
            obtain ⟨e, behind, inner, kept⟩ := exists_replacePair_cons '~' '1' '/' d rest
            have slashes : replacePair '~' '1' '/' ('~' :: d :: rest) = '~' :: e :: behind := by
              rw [replacePair, if_neg fun both => notOne both.2, inner]
            have alone : e ≠ '0' := by
              rcases kept with rfl | rfl
              · exact notZero
              · decide
            have tildes : replacePair '~' '0' '~' ('~' :: e :: behind) =
                '~' :: replacePair '~' '0' '~' (e :: behind) := if_neg fun both => alone both.2
            rw [unescape, induction, slashes, tildes, inner]
            · exact noSlash
            · exact noTilde
      · rw [unescape_cons tilde, induction, replacePair_cons_of_ne tilde,
          replacePair_cons_of_ne tilde]
  | case4 => rfl

end WireSchema.Pointer

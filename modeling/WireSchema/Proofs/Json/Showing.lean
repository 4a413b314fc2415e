import WireSchema.Json.Written
import WireSchema.Proofs.Json.Induction
import WireSchema.Proofs.Json.Scanning

/-! # Trees that show documents

The tree of a text that spells a document **shows** the document: nothing in it is broken, and every
array and object is closed. What follows the text is left to whoever reads on
(`shows_ofText`). -/

namespace WireSchema.Json

open Token (scanFrom)

/-- The documents that are **words**: literals and numbers, whose texts end where what follows them
allows it. -/
def IsWord : Json → Prop
  | .null | .bool _ | .number _ => True
  | _ => False

/-- The tokens that runs start with. -/
def Token.IsWord : Token → Prop
  | .null | .bool _ | .number _ | .misspeltNull _ | .fault _ => True
  | _ => False

/-- The trees of words, well formed or not. -/
def Written.IsWord : Written → Prop
  | .null | .bool _ | .number _ | .misspeltNull _ | .broken _ => True
  | _ => False

namespace Written

mutual

/-- **A tree shows a document.** -/
inductive Shows : Written → Json → Prop
  /-- The literal `null`. -/
  | null : Shows .null .null
  /-- A truth value. -/
  | bool (value : Bool) : Shows (.bool value) (.bool value)
  /-- A number that is not out of range. -/
  | number (value : Number) : Shows (.number (some value)) (.number value)
  /-- A quoted text that spells a text. -/
  | string {pieces : List Piece} {value : String} (spells : Piece.text pieces = .ok value) :
      Shows (.string pieces) (.string value)
  /-- A closed array whose items show documents. -/
  | array {items : List Written} {values : List Json} (each : ShowItems items values) :
      Shows (.array items .closed) (.array values)
  /-- A closed object whose members show named documents. -/
  | object {members : List (List Piece × Written)} {values : List (String × Json)}
      (each : ShowMembers members values) : Shows (.object members .closed) (.object values)

/-- Items show documents, each at its position. -/
inductive ShowItems : List Written → List Json → Prop
  /-- No items show no documents. -/
  | nil : ShowItems [] []
  /-- The first item shows the first document. -/
  | cons {item : Written} {value : Json} {items : List Written} {values : List Json}
      (first : Shows item value) (rest : ShowItems items values) :
      ShowItems (item :: items) (value :: values)

/-- Members show named documents, each at its position. -/
inductive ShowMembers : List (List Piece × Written) → List (String × Json) → Prop
  /-- No members show no documents. -/
  | nil : ShowMembers [] []
  /-- The first member shows the first document under its name. -/
  | cons {pieces : List Piece} {name : String} {member : Written} {value : Json}
      {members : List (List Piece × Written)} {values : List (String × Json)}
      (spells : Piece.text pieces = .ok name) (first : Shows member value)
      (rest : ShowMembers members values) :
      ShowMembers ((pieces, member) :: members) ((name, value) :: values)

end

/-! ## (1) Steps -/

/-- A state **awaits a value** inside open frames. -/
inductive AwaitsValue : State → List Frame → Prop
  /-- Nothing but a value is expected. -/
  | value (frames : List Frame) : AwaitsValue (.value frames) frames
  /-- An array is open, and its first item is expected. -/
  | firstItem (frames : List Frame) : AwaitsValue (.firstItem frames) (.array [] :: frames)
  /-- An array is open, and its next item is expected. -/
  | nextItem (reversed : List Written) (frames : List Frame) :
      AwaitsValue (.nextItem reversed frames) (.array reversed :: frames)

/-- A token that starts a value leads to the same state wherever a value is awaited. -/
theorem run_of_awaitsValue {state next : State} {frames : List Frame} {token : Token}
    (awaits : AwaitsValue state frames) (starts : stepValue frames token = .inl next)
    (tokens : List Token) : run state (token :: tokens) = run next tokens := by
  have notClose : token ≠ .closeArray := by
    rintro rfl
    cases starts
  cases awaits with
  | value => rw [run, step, starts]; exact fun _ same => nomatch same
  | firstItem => rw [run, step, if_neg notClose, starts]; exact fun _ same => nomatch same
  | nextItem => rw [run, step, if_neg notClose, starts]; exact fun _ same => nomatch same

/-- The text of a value is followed to its end, where the value has been read. -/
def Follows (state : State) (frames : List Frame) (read : Written) (text : List Char) : Prop :=
  ∀ behind, StopsRun behind →
    run state (scanFrom (.run []) (text ++ behind)) =
      run (.after read frames) (scanFrom (.run []) behind)

/-- A word is followed when its run is the token of its value. -/
theorem follows_word {state : State} {frames : List Frame} {word : List Char} {token : Token}
    {read : Written} (awaits : AwaitsValue state frames)
    (plain : ∀ c ∈ word, Token.classify c = .plain) (isToken : Token.ofRun word false = [token])
    (starts : stepValue frames token = .inl (.after read frames)) :
    Follows state frames read word := by
  intro behind stops
  rw [scan_word plain stops, isToken, List.singleton_append]
  exact run_of_awaitsValue awaits starts _

/-- Blanks in front of what stops a run stop it as well. -/
theorem stopsRun_blank {blanks behind : List Char} (blank : IsBlank blanks)
    (stops : StopsRun behind) : StopsRun (blanks ++ behind) := by
  cases blanks with
  | nil => exact stops
  | cons c rest =>
      refine ⟨c, rest ++ behind, rfl, ?_⟩
      rcases blank c List.mem_cons_self with rfl | rfl | rfl | rfl <;> exact nofun

/-- Blanks around the text of a value do not matter. -/
theorem follows_padded {state : State} {frames : List Frame} {read : Written}
    {before inside after : List Char} (blankBefore : IsBlank before) (blankAfter : IsBlank after)
    (follows : Follows state frames read inside) :
    Follows state frames read (before ++ (inside ++ after)) := by
  intro behind stops
  rw [List.append_assoc, scanFrom_blank blankBefore, List.append_assoc,
    follows _ (stopsRun_blank blankAfter stops), scanFrom_blank blankAfter]

/-! ## (2) Values -/

/-- A document **is read** from each of its texts: wherever a value is awaited, the text leads to
one tree, which shows the document. -/
def IsRead (json : Json) : Prop :=
  ∀ text, json.HasText text → ∃ written, Shows written json ∧
    ∀ state frames, AwaitsValue state frames → Follows state frames written text

/-- What is read by itself is read with blanks around it. -/
theorem IsRead.padded {json : Json} (isRead : IsRead json) {text : List Char}
    (hasText : Padded json.HasText text) :
    ∃ written, Shows written json ∧
      ∀ state frames, AwaitsValue state frames → Follows state frames written text := by
  obtain ⟨before, inside, after, blankBefore, insideHasText, blankAfter, rfl⟩ := hasText
  obtain ⟨written, shows_, follows⟩ := isRead inside insideHasText
  exact ⟨written, shows_, fun state frames awaits =>
    follows_padded blankBefore blankAfter (follows state frames awaits)⟩

/-- Every text of null is read as null. -/
theorem isRead_null : IsRead .null := by
  rintro text hasText
  cases (show text = ['n', 'u', 'l', 'l'] from hasText)
  exact ⟨.null, .null, fun state frames awaits =>
    follows_word awaits (by simp [Token.classify]) rfl rfl⟩

/-- Every text of a boolean is read as the boolean. -/
theorem isRead_bool (value : Bool) : IsRead (.bool value) := by
  rintro text hasText
  cases value with
  | true =>
      cases (show text = ['t', 'r', 'u', 'e'] from hasText)
      exact ⟨.bool true, .bool true, fun state frames awaits =>
        follows_word awaits (by simp [Token.classify]) rfl rfl⟩
  | false =>
      cases (show text = ['f', 'a', 'l', 's', 'e'] from hasText)
      exact ⟨.bool false, .bool false, fun state frames awaits =>
        follows_word awaits (by simp [Token.classify]) rfl rfl⟩

/-- Every text of a number is read as the number. -/
theorem isRead_number (value : Number) : IsRead (.number value) := by
  rintro text ⟨literal, hasText, denotes⟩
  refine ⟨.number (some value), .number value, fun state frames awaits =>
    follows_word awaits (fun c held => classify_of_mem_literal hasText held)
      (ofRun_literal hasText false) ?_⟩
  rw [denotes]
  rfl

/-- Every text of a string is read as the string. -/
theorem isRead_string (value : String) : IsRead (.string value) := by
  intro text hasText
  obtain ⟨pieces, spells, scans⟩ := scan_string hasText
  refine ⟨.string pieces, .string spells, fun state frames awaits behind _ => ?_⟩
  rw [scans]
  exact run_of_awaitsValue awaits rfl _

/-! ## (3) Arrays -/

/-- What follows an item stops the run of the item. -/
theorem stopsRun_moreItems {items : List Json} {text : List Char}
    (hasText : MoreItemsHaveText items text) (behind : List Char) :
    StopsRun (text ++ ']' :: behind) := by
  cases items with
  | nil =>
      cases hasText
      exact ⟨']', behind, rfl, nofun⟩
  | cons item rest =>
      obtain ⟨here, others, _, _, rfl⟩ := hasText
      exact ⟨',', _, rfl, nofun⟩

/-- Behind an item, the other items are read up to the end of the array. -/
theorem exists_moreItems {items : List Json} (each : ∀ item ∈ items, IsRead item)
    {text : List Char} (hasText : MoreItemsHaveText items text) :
    ∃ others, ShowItems others items ∧ ∀ last reversed frames behind,
      run (.after last (.array reversed :: frames)) (scanFrom (.run []) (text ++ ']' :: behind)) =
        run (.after (.array ((last :: reversed).reverse ++ others) .closed) frames)
          (scanFrom (.run []) behind) := by
  induction items generalizing text with
  | nil =>
      cases hasText
      refine ⟨[], .nil, fun last reversed frames behind => ?_⟩
      rw [List.append_nil]
      rfl
  | cons item rest induction =>
      rw [List.forall_mem_cons] at each
      obtain ⟨here, behindText, itemHasText, restHaveText, rfl⟩ := hasText
      obtain ⟨written, shown, follows⟩ := each.1.padded itemHasText
      obtain ⟨others, othersShown, closes⟩ := induction each.2 restHaveText
      refine ⟨written :: others, .cons shown othersShown, fun last reversed frames behind => ?_⟩
      have comma : run (.after last (.array reversed :: frames))
          (scanFrom (.run []) (',' :: (here ++ (behindText ++ ']' :: behind)))) =
          run (.nextItem (last :: reversed) frames)
            (scanFrom (.run []) (here ++ (behindText ++ ']' :: behind))) := rfl
      rw [List.cons_append, List.append_assoc, comma,
        follows _ _ (.nextItem _ _) _ (stopsRun_moreItems restHaveText behind), closes,
        List.reverse_cons, List.append_assoc]
      rfl

/-- **Arrays are read**, whatever follows them. -/
theorem exists_array {items : List Json} (each : ∀ item ∈ items, IsRead item) {text : List Char}
    (hasText : (Json.array items).HasText text) :
    ∃ written, Shows written (.array items) ∧ ∀ state frames, AwaitsValue state frames →
      ∀ behind, run state (scanFrom (.run []) (text ++ behind)) =
        run (.after written frames) (scanFrom (.run []) behind) := by
  obtain ⟨inside, insideHasText, rfl⟩ := hasText
  -- the bracket opens the array, wherever a value is awaited
  have opens : ∀ state frames, AwaitsValue state frames → ∀ behind,
      run state (scanFrom (.run []) ('[' :: (inside ++ ']' :: behind))) =
        run (.firstItem frames) (scanFrom (.run []) (inside ++ ']' :: behind)) :=
    fun state frames awaits behind => run_of_awaitsValue awaits rfl _
  simp only [List.cons_append, List.append_assoc, List.nil_append]
  cases items with
  | nil =>
      refine ⟨.array [] .closed, .array .nil, fun state frames awaits behind => ?_⟩
      rw [opens state frames awaits, scanFrom_blank insideHasText]
      rfl
  | cons item rest =>
      rw [List.forall_mem_cons] at each
      obtain ⟨here, more, itemHasText, moreHaveText, rfl⟩ := insideHasText
      obtain ⟨written, shown, follows⟩ := each.1.padded itemHasText
      obtain ⟨others, othersShown, closes⟩ := exists_moreItems each.2 moreHaveText
      refine ⟨.array (written :: others) .closed, .array (.cons shown othersShown),
        fun state frames awaits behind => ?_⟩
      rw [opens state frames awaits, List.append_assoc,
        follows _ _ (.firstItem frames) _ (stopsRun_moreItems moreHaveText behind), closes]
      rfl

/-! ## (4) Objects -/

/-- What follows a member stops the run of its value. -/
theorem stopsRun_moreMembers {members : List (String × Json)} {text : List Char}
    (hasText : MoreMembersHaveText members text) (behind : List Char) :
    StopsRun (text ++ '}' :: behind) := by
  cases members with
  | nil =>
      cases hasText
      exact ⟨'}', behind, rfl, nofun⟩
  | cons member rest =>
      obtain ⟨before, here, others, _, _, _, rfl⟩ := hasText
      exact ⟨',', _, rfl, nofun⟩

/-- A state **awaits a name** in an open object. -/
inductive AwaitsName : State → List (List Piece × Written) → List Frame → Prop
  /-- The first name is expected. -/
  | first (frames : List Frame) : AwaitsName (.firstName frames) [] frames
  /-- The next name is expected. -/
  | next (reversed : List (List Piece × Written)) (frames : List Frame) :
      AwaitsName (.nextName reversed frames) reversed frames

/-- A name and its colon lead to where the value of the name is awaited. -/
theorem exists_name {name : String} {text : List Char}
    (hasText : Padded (StringHasText name) text) :
    ∃ pieces, Piece.text pieces = .ok name ∧ ∀ state reversed frames,
      AwaitsName state reversed frames → ∀ behind,
        run state (scanFrom (.run []) (text ++ ':' :: behind)) =
          run (.value (.object reversed pieces :: frames)) (scanFrom (.run []) behind) := by
  obtain ⟨before, inside, after, blankBefore, insideHasText, blankAfter, rfl⟩ := hasText
  obtain ⟨pieces, spells, scans⟩ := scan_string insideHasText
  refine ⟨pieces, spells, fun state reversed frames awaits behind => ?_⟩
  rw [List.append_assoc, List.append_assoc, scanFrom_blank blankBefore, scans,
    scanFrom_blank blankAfter]
  cases awaits with
  | first => rfl
  | next => rfl

/-- A member is read up to the end of its value. -/
theorem exists_member {name : String} {value : Json} (isRead : IsRead value)
    {before here : List Char} (nameHasText : Padded (StringHasText name) before)
    (valueHasText : Padded value.HasText here) :
    ∃ pieces written, Piece.text pieces = .ok name ∧ Shows written value ∧
      ∀ state reversed frames, AwaitsName state reversed frames → ∀ behind, StopsRun behind →
        run state (scanFrom (.run []) (before ++ ':' :: (here ++ behind))) =
          run (.after written (.object reversed pieces :: frames)) (scanFrom (.run []) behind) := by
  obtain ⟨pieces, spells, names⟩ := exists_name nameHasText
  obtain ⟨written, shown, follows⟩ := isRead.padded valueHasText
  refine ⟨pieces, written, spells, shown, fun state reversed frames awaits behind stops => ?_⟩
  rw [names state reversed frames awaits, follows _ _ (.value _) _ stops]

/-- Behind a member, the other members are read up to the end of the object. -/
theorem exists_moreMembers {members : List (String × Json)}
    (each : ∀ member ∈ members, IsRead member.2) {text : List Char}
    (hasText : MoreMembersHaveText members text) :
    ∃ others, ShowMembers others members ∧ ∀ last reversed name frames behind,
      run (.after last (.object reversed name :: frames))
          (scanFrom (.run []) (text ++ '}' :: behind)) =
        run (.after (.object (((name, last) :: reversed).reverse ++ others) .closed) frames)
          (scanFrom (.run []) behind) := by
  induction members generalizing text with
  | nil =>
      cases hasText
      refine ⟨[], .nil, fun last reversed name frames behind => ?_⟩
      rw [List.append_nil]
      rfl
  | cons member rest induction =>
      obtain ⟨name, value⟩ := member
      rw [List.forall_mem_cons] at each
      obtain ⟨before, here, behindText, nameHasText, valueHasText, restHaveText, rfl⟩ := hasText
      obtain ⟨pieces, written, spells, shown, follows⟩ :=
        exists_member each.1 nameHasText valueHasText
      obtain ⟨others, othersShown, closes⟩ := induction each.2 restHaveText
      refine ⟨(pieces, written) :: others, .cons spells shown othersShown,
        fun last reversed lastName frames behind => ?_⟩
      -- the comma closes the member in front, whose name waits on the stack
      have comma : run (.after last (.object reversed lastName :: frames)) (scanFrom (.run [])
          (',' :: (before ++ ':' :: (here ++ (behindText ++ '}' :: behind))))) =
          run (.nextName ((lastName, last) :: reversed) frames)
            (scanFrom (.run []) (before ++ ':' :: (here ++ (behindText ++ '}' :: behind)))) := rfl
      rw [List.cons_append, List.append_assoc, List.cons_append, List.append_assoc, comma,
        follows _ _ _ (.next _ _) _ (stopsRun_moreMembers restHaveText behind), closes,
        List.reverse_cons, List.append_assoc]
      rfl

/-- **Objects are read**, whatever follows them. -/
theorem exists_object {members : List (String × Json)}
    (each : ∀ member ∈ members, IsRead member.2) {text : List Char}
    (hasText : (Json.object members).HasText text) :
    ∃ written, Shows written (.object members) ∧ ∀ state frames, AwaitsValue state frames →
      ∀ behind, run state (scanFrom (.run []) (text ++ behind)) =
        run (.after written frames) (scanFrom (.run []) behind) := by
  obtain ⟨inside, insideHasText, rfl⟩ := hasText
  -- the brace opens the object, wherever a value is awaited
  have opens : ∀ state frames, AwaitsValue state frames → ∀ behind,
      run state (scanFrom (.run []) ('{' :: (inside ++ '}' :: behind))) =
        run (.firstName frames) (scanFrom (.run []) (inside ++ '}' :: behind)) :=
    fun state frames awaits behind => run_of_awaitsValue awaits rfl _
  simp only [List.cons_append, List.append_assoc, List.nil_append]
  cases members with
  | nil =>
      refine ⟨.object [] .closed, .object .nil, fun state frames awaits behind => ?_⟩
      rw [opens state frames awaits, scanFrom_blank insideHasText]
      rfl
  | cons member rest =>
      obtain ⟨name, value⟩ := member
      rw [List.forall_mem_cons] at each
      obtain ⟨before, here, more, nameHasText, valueHasText, moreHaveText, rfl⟩ := insideHasText
      obtain ⟨pieces, written, spells, shown, follows⟩ :=
        exists_member each.1 nameHasText valueHasText
      obtain ⟨others, othersShown, closes⟩ := exists_moreMembers each.2 moreHaveText
      refine ⟨.object ((pieces, written) :: others) .closed,
        .object (.cons spells shown othersShown), fun state frames awaits behind => ?_⟩
      rw [opens state frames awaits, List.append_assoc, List.cons_append, List.append_assoc,
        follows _ _ _ (.first frames) _ (stopsRun_moreMembers moreHaveText behind), closes]
      rfl

/-! ## (5) Whole texts -/

/-- **Every document is read** from its texts. -/
theorem isRead (json : Json) : IsRead json := by
  induction json using Json.induction with
  | null => exact isRead_null
  | bool value => exact isRead_bool value
  | number value => exact isRead_number value
  | string value => exact isRead_string value
  | array items each =>
      intro text hasText
      obtain ⟨written, shown, reads⟩ := exists_array each hasText
      exact ⟨written, shown, fun state frames awaits behind _ => reads state frames awaits behind⟩
  | object members each =>
      intro text hasText
      obtain ⟨written, shown, reads⟩ := exists_object each hasText
      exact ⟨written, shown, fun state frames awaits behind _ => reads state frames awaits behind⟩

/-- A text that spells a text, an array or an object shows it, whatever follows. -/
theorem shows_ofText {json : Json} (closed : ¬json.IsWord) {text : List Char}
    (hasText : Padded json.HasText text) (behind : List Char) :
    Shows (ofText (text ++ behind)).1 json := by
  obtain ⟨before, inside, after, blankBefore, insideHasText, _, rfl⟩ := hasText
  -- behind a bracket or a quote the value is complete, whatever follows it
  have ends : ∀ written, (∀ state frames, AwaitsValue state frames → ∀ behind,
      run state (scanFrom (.run []) (inside ++ behind)) =
        run (.after written frames) (scanFrom (.run []) behind)) →
      (ofText (before ++ (inside ++ after) ++ behind)).1 = written := by
    intro written reads
    rw [ofText, Token.scan, List.append_assoc, scanFrom_blank blankBefore, List.append_assoc,
      reads _ _ (.value []), run]
  cases json with
  | string value =>
      obtain ⟨pieces, spells, scans⟩ := scan_string insideHasText
      rw [ends (.string pieces)]
      · exact .string spells
      · intro state frames awaits behind
        rw [scans]
        exact run_of_awaitsValue awaits rfl _
  | array items =>
      obtain ⟨written, shown, reads⟩ := exists_array (fun item _ => isRead item) insideHasText
      rw [ends written reads]
      exact shown
  | object members =>
      obtain ⟨written, shown, reads⟩ :=
        exists_object (fun member _ => isRead member.2) insideHasText
      rw [ends written reads]
      exact shown
  | _ => exact absurd trivial closed

/-! ## (6) Words -/

/-- A run starts with the token of a word. -/
theorem exists_ofRun {word : List Char} (notEmpty : word ≠ []) (isLast : Bool) :
    ∃ token tokens, Token.ofRun word isLast = token :: tokens ∧ token.IsWord := by
  have rest : ∀ (token : Token) behind, token.IsWord →
      ∃ first tokens, Token.withRest token behind = first :: tokens ∧ first.IsWord := by
    intro token behind isWord
    cases behind with
    | nil => exact ⟨token, [], rfl, isWord⟩
    | cons _ _ => exact ⟨token, _, rfl, isWord⟩
  -- a misspelt literal gives a word too, which tells its error
  have literal : ∀ (token : Token) misspelt expected behind, token.IsWord →
      (∀ error, (misspelt error : Token).IsWord) →
      ∃ first tokens, Token.literal token misspelt expected behind isLast = first :: tokens ∧
        first.IsWord := by
    intro token misspelt expected behind isWord misspeltIsWord
    rw [Token.literal]
    cases Token.expectChars expected behind isLast with
    | ok others => exact rest token others isWord
    | error error => exact ⟨_, [], rfl, misspeltIsWord error⟩
  unfold Token.ofRun
  split
  · exact absurd rfl notEmpty
  · exact literal _ _ _ _ trivial fun _ => trivial
  · exact literal _ _ _ _ trivial fun _ => trivial
  · exact literal _ _ _ _ trivial fun _ => trivial
  · split
    · split
      · exact rest _ _ trivial
      · exact ⟨_, [], rfl, trivial⟩
    · exact ⟨_, [], rfl, trivial⟩

/-- A run that has begun gives the token of a word first. -/
theorem exists_scanFrom_run {reversed : List Char} (begun : reversed ≠ []) (text : List Char) :
    ∃ token tokens, scanFrom (.run reversed) text = token :: tokens ∧ token.IsWord := by
  induction text generalizing reversed with
  | nil => exact exists_ofRun (by simpa using begun) true
  | cons c rest induction =>
      obtain ⟨token, tokens, starts, isWord⟩ :=
        exists_ofRun (List.reverse_ne_nil_iff.mpr begun) false
      rw [scanFrom]
      cases Token.classify c with
      | plain => exact induction (List.cons_ne_nil c reversed)
      | blank => exact ⟨token, _, by simp only [starts]; rfl, isWord⟩
      | mark _ => exact ⟨token, _, by simp only [starts]; rfl, isWord⟩
      | quote => exact ⟨token, _, by simp only [starts]; rfl, isWord⟩

/-- The tree of a text whose first token is that of a word is a word. -/
theorem isWord_run {token : Token} (isWord : token.IsWord) (tokens : List Token) :
    (run (.value []) (token :: tokens)).1.IsWord := by
  have ends : ∀ read : Written, read.IsWord → (run (.after read []) tokens).1.IsWord := by
    intro read readIsWord
    rw [run]
    exact readIsWord
  rw [run]
  · cases token with
    | null => exact ends .null trivial
    | bool value => exact ends (.bool value) trivial
    | number value => exact ends (.number value) trivial
    | misspeltNull _ => trivial
    | fault _ => trivial
    | _ => exact isWord.elim
  · exact nofun

/-- A text that starts with a word has the tree of a word. -/
theorem isWord_ofText {json : Json} (isWord : json.IsWord) {text : List Char}
    (hasText : Padded json.HasText text) (behind : List Char) :
    (ofText (text ++ behind)).1.IsWord := by
  obtain ⟨before, inside, after, blankBefore, insideHasText, _, rfl⟩ := hasText
  -- words begin with a plain character, which is where the run starts
  have begins : ∃ c rest, inside = c :: rest ∧ Token.classify c = .plain := by
    cases json with
    | null =>
        cases (show inside = ['n', 'u', 'l', 'l'] from insideHasText)
        exact ⟨'n', _, rfl, rfl⟩
    | bool value =>
        cases value with
        | true =>
            cases (show inside = ['t', 'r', 'u', 'e'] from insideHasText)
            exact ⟨'t', _, rfl, rfl⟩
        | false =>
            cases (show inside = ['f', 'a', 'l', 's', 'e'] from insideHasText)
            exact ⟨'f', _, rfl, rfl⟩
    | number value =>
        obtain ⟨literal, hasText, _⟩ := insideHasText
        obtain ⟨first, rest, rfl, _⟩ := exists_head_literal hasText
        exact ⟨first, rest, rfl, classify_of_mem_literal hasText List.mem_cons_self⟩
    | _ => exact isWord.elim
  obtain ⟨c, rest, rfl, plain⟩ := begins
  obtain ⟨token, tokens, starts, tokenIsWord⟩ :=
    exists_scanFrom_run (List.cons_ne_nil c []) (rest ++ (after ++ behind))
  rw [ofText, Token.scan, List.append_assoc, scanFrom_blank blankBefore, List.append_assoc,
    List.cons_append, scanFrom, plain]
  simp only [starts]
  exact isWord_run tokenIsWord tokens

/-! ## (7) Trees of all documents -/

/-- Plain characters spell the string they make up. -/
theorem text_map_char (value : String) : Piece.text (value.toList.map .char) = .ok value := by
  have decodes : ∀ text : List Char, Piece.decode (text.map .char) = .ok text := by
    intro text
    induction text with
    | nil => rfl
    | cons c rest induction =>
        rw [List.map_cons, Piece.decode, induction]
        rfl
  rw [Piece.text, decodes, Except.map, String.ofList_toList]

/-- Every document is shown by some tree. -/
theorem exists_shows (json : Json) : ∃ written, Shows written json := by
  induction json using Json.induction with
  | null => exact ⟨.null, .null⟩
  | bool value => exact ⟨.bool value, .bool value⟩
  | number value => exact ⟨.number (some value), .number value⟩
  | string value => exact ⟨.string _, .string (text_map_char value)⟩
  | array values each =>
      have items : ∃ items, ShowItems items values := by
        induction values with
        | nil => exact ⟨[], .nil⟩
        | cons value rest induction =>
            rw [List.forall_mem_cons] at each
            obtain ⟨written, shown⟩ := each.1
            obtain ⟨others, othersShown⟩ := induction each.2
            exact ⟨written :: others, .cons shown othersShown⟩
      obtain ⟨items, shown⟩ := items
      exact ⟨.array items .closed, .array shown⟩
  | object values each =>
      have members : ∃ members, ShowMembers members values := by
        induction values with
        | nil => exact ⟨[], .nil⟩
        | cons value rest induction =>
            rw [List.forall_mem_cons] at each
            obtain ⟨written, shown⟩ := each.1
            obtain ⟨others, othersShown⟩ := induction each.2
            exact ⟨_ :: others, .cons (text_map_char value.1) shown othersShown⟩
      obtain ⟨members, shown⟩ := members
      exact ⟨.object members .closed, .object shown⟩
end Written

end WireSchema.Json

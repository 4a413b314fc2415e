import Mathlib.Data.Sum.Basic
import WireSchema.Json.Location
import WireSchema.Proofs.Json.Showing

/-! # Exchanging a value in a text

A value inside a text is exchanged for another one. The text before it leads the reader to open
arrays and objects, which tell the location of the value (`Locates`); all that is read behind it is
the same. So the tree of the text changes at this location, and nowhere else
(`exchanged_ofText`). -/

namespace WireSchema.Json

namespace Written

open Token (scanFrom)

variable {old new : Written}

/-! ## (1) Trees -/

/-- **A value is exchanged** at a location of a tree, and all else stays: `old` for `new`. -/
inductive Exchanged (old new : Written) : Location → Written → Written → Prop
  /-- The whole tree is the value. -/
  | here : Exchanged old new [] old new
  /-- The value stands in a member. -/
  | member {location : Location} {name : String} {pieces : List Piece} {value value' : Written}
      (spells : Piece.text pieces = .ok name) (inside : Exchanged old new location value value')
      (front behind : List (List Piece × Written)) (ending : Ending) :
      Exchanged old new (.member name :: location)
        (.object (front ++ (pieces, value) :: behind) ending)
        (.object (front ++ (pieces, value') :: behind) ending)
  /-- The value stands in an item. -/
  | item {location : Location} {value value' : Written}
      (inside : Exchanged old new location value value') (front behind : List Written)
      (ending : Ending) :
      Exchanged old new (.item front.length :: location) (.array (front ++ value :: behind) ending)
        (.array (front ++ value' :: behind) ending)

/-! ## (2) Open arrays and objects -/

/-- **The location of what is read next** inside open arrays and objects. -/
inductive Locates : List Frame → Location → Prop
  /-- Nothing is open at the root. -/
  | root : Locates [] []
  /-- An array is open, and as many items have been read. -/
  | array {frames : List Frame} {outer : Location} (locates : Locates frames outer)
      (reversed : List Written) :
      Locates (.array reversed :: frames) (outer ++ [.item reversed.length])
  /-- An object is open, and waits for the value of a name. -/
  | object {frames : List Frame} {outer : Location} {pieces : List Piece} {name : String}
      (locates : Locates frames outer) (spells : Piece.text pieces = .ok name)
      (reversed : List (List Piece × Written)) :
      Locates (.object reversed pieces :: frames) (outer ++ [.member name])

/-- What is exchanged inside a value that is read last is exchanged in the whole tree. -/
theorem Locates.exchanged_enclose {frames : List Frame} {outer : Location}
    (locates : Locates frames outer) {inner : Location} {read read' : Written}
    (inside : Exchanged old new inner read read') :
    Exchanged old new (outer ++ inner) (enclose frames read) (enclose frames read') := by
  induction locates generalizing inner read read' with
  | root => exact inside
  | array locates reversed induction =>
      have closed := Exchanged.item inside reversed.reverse [] .cut
      rw [List.length_reverse] at closed
      rw [List.append_assoc, enclose, enclose, List.reverse_cons, List.reverse_cons]
      exact induction closed
  | object locates spells reversed induction =>
      rw [List.append_assoc, enclose, enclose, List.reverse_cons, List.reverse_cons]
      exact induction (.member spells inside reversed.reverse [] .cut)

/-- **A value is exchanged inside open frames**: in an entry that has been read, and not in the one
that is read next. -/
inductive FramesExchanged (old new : Written) : Location → List Frame → List Frame → Prop
  /-- The value stands in an item of the innermost array. -/
  | item {frames : List Frame} {outer inner : Location} {value value' : Written}
      (locates : Locates frames outer) (inside : Exchanged old new inner value value')
      (later earlier : List Written) :
      FramesExchanged old new (outer ++ .item earlier.length :: inner)
        (.array (later ++ value :: earlier) :: frames)
        (.array (later ++ value' :: earlier) :: frames)
  /-- The value stands in a member of the innermost object. -/
  | member {frames : List Frame} {outer inner : Location} {name : String} {pieces : List Piece}
      {value value' : Written} (locates : Locates frames outer)
      (spells : Piece.text pieces = .ok name) (inside : Exchanged old new inner value value')
      (later earlier : List (List Piece × Written)) (waiting : List Piece) :
      FramesExchanged old new (outer ++ .member name :: inner)
        (.object (later ++ (pieces, value) :: earlier) waiting :: frames)
        (.object (later ++ (pieces, value') :: earlier) waiting :: frames)
  /-- The value stands further out. -/
  | outer {frames frames' : List Frame} {location : Location} (frame : Frame)
      (outside : FramesExchanged old new location frames frames') :
      FramesExchanged old new location (frame :: frames) (frame :: frames')

/-- **A value is exchanged in what has been read**: in the last value, or in the open frames. -/
inductive ReadExchanged (old new : Written) :
    Location → Written → List Frame → Written → List Frame → Prop
  /-- It stands in the last value. -/
  | inside {frames : List Frame} {outer inner : Location} {read read' : Written}
      (locates : Locates frames outer) (inside : Exchanged old new inner read read') :
      ReadExchanged old new (outer ++ inner) read frames read' frames
  /-- It stands in the open frames. -/
  | outside {location : Location} {frames frames' : List Frame} (read : Written)
      (outside : FramesExchanged old new location frames frames') :
      ReadExchanged old new location read frames read frames'

section Frames

variable {location : Location} {frames frames' : List Frame} {read read' : Written}

/-- An array that is closed, or breaks off, holds the value where its items or the frames around it
do. -/
theorem FramesExchanged.array {reversed reversed' : List Written}
    (exchanged : FramesExchanged old new location (.array reversed :: frames)
      (.array reversed' :: frames')) (ending : Ending) :
    ReadExchanged old new location (.array reversed.reverse ending) frames
      (.array reversed'.reverse ending) frames' := by
  cases exchanged with
  | item locates inside later earlier =>
      have closed := Exchanged.item inside earlier.reverse later.reverse ending
      rw [List.length_reverse] at closed
      simp only [List.reverse_append, List.reverse_cons, List.append_assoc, List.singleton_append]
      exact .inside locates closed
  | outer _ outside => exact .outside _ outside

/-- An object that is closed is exchanged for an object, where its open frame was. -/
theorem FramesExchanged.object {reversed reversed' : List (List Piece × Written)}
    {waiting waiting' : List Piece}
    (exchanged : FramesExchanged old new location (.object reversed waiting :: frames)
      (.object reversed' waiting' :: frames')) (ending : Ending) :
    ReadExchanged old new location (.object reversed.reverse ending) frames
      (.object reversed'.reverse ending) frames' := by
  cases exchanged with
  | member locates spells inside later earlier waiting =>
      simp only [List.reverse_append, List.reverse_cons, List.append_assoc, List.singleton_append]
      exact .inside locates (.member spells inside earlier.reverse later.reverse ending)
  | outer _ outside => exact .outside _ outside

/-- The last value becomes an item of the array around it. -/
theorem ReadExchanged.item {reversed reversed' : List Written}
    (exchanged : ReadExchanged old new location read (.array reversed :: frames) read'
      (.array reversed' :: frames')) :
    FramesExchanged old new location (.array (read :: reversed) :: frames)
      (.array (read' :: reversed') :: frames') := by
  cases exchanged with
  | inside locates inside =>
      cases locates with
      | array locates reversed =>
          rw [List.append_assoc]
          exact .item locates inside [] reversed
  | outside read outside =>
      cases outside with
      | item locates inside later earlier => exact .item locates inside (read :: later) earlier
      | outer _ outside => exact .outer _ outside

/-- The last value becomes a member of the object around it. -/
theorem ReadExchanged.member {reversed reversed' : List (List Piece × Written)}
    {waiting waiting' : List Piece}
    (exchanged : ReadExchanged old new location read (.object reversed waiting :: frames) read'
      (.object reversed' waiting' :: frames')) (name : List Piece) :
    FramesExchanged old new location (.object ((waiting, read) :: reversed) name :: frames)
      (.object ((waiting', read') :: reversed') name :: frames') := by
  cases exchanged with
  | inside locates inside =>
      cases locates with
      | object locates spells reversed =>
          rw [List.append_assoc]
          exact .member locates spells inside [] reversed name
  | outside read outside =>
      cases outside with
      | member locates spells inside later earlier waiting =>
          exact .member locates spells inside ((waiting, read) :: later) earlier name
      | outer _ outside => exact .outer _ outside

/-- What is exchanged in open frames is exchanged in the tree of a text that ends inside them. -/
theorem FramesExchanged.exchanged_enclose
    (exchanged : FramesExchanged old new location frames frames') (read : Written) :
    Exchanged old new location (enclose frames read) (enclose frames' read) := by
  -- a frame is closed around the value read last, and the frames further out follow
  induction exchanged generalizing read with
  | item locates inside later earlier =>
      have closed := Exchanged.item inside earlier.reverse (later.reverse ++ [read]) .cut
      rw [List.length_reverse] at closed
      simpa [enclose] using locates.exchanged_enclose closed
  | member locates spells inside later earlier waiting =>
      have closed := Exchanged.member spells inside earlier.reverse
        (later.reverse ++ [(waiting, read)]) .cut
      simpa [enclose] using locates.exchanged_enclose closed
  | outer frame _ induction =>
      cases frame with
      | array reversed => exact induction _
      | object reversed name => exact induction _

/-- What is exchanged in what has been read is exchanged in the tree of a text that ends there. -/
theorem ReadExchanged.exchanged_enclose
    (exchanged : ReadExchanged old new location read frames read' frames') :
    Exchanged old new location (enclose frames read) (enclose frames' read') := by
  cases exchanged with
  | inside locates inside => exact locates.exchanged_enclose inside
  | outside read outside => exact outside.exchanged_enclose read

/-- **The innermost frames are of one kind**, and none is open only where none is open on the other
side. -/
inductive SameKind : List Frame → List Frame → Prop
  /-- Nothing is open. -/
  | root : SameKind [] []
  /-- Arrays are open. -/
  | array (reversed reversed' : List Written) (frames frames' : List Frame) :
      SameKind (.array reversed :: frames) (.array reversed' :: frames')
  /-- Objects are open, and wait for the value of one name. -/
  | object (reversed reversed' : List (List Piece × Written)) (name : List Piece)
      (frames frames' : List Frame) :
      SameKind (.object reversed name :: frames) (.object reversed' name :: frames')

/-- Every stack of frames is of its own kind. -/
theorem sameKind_refl (frames : List Frame) : SameKind frames frames := by
  match frames with
  | [] => exact .root
  | .array _ :: _ => exact .array ..
  | .object _ _ :: _ => exact .object ..

/-- What is exchanged stands under frames of the same kind. -/
theorem ReadExchanged.sameKind
    (exchanged : ReadExchanged old new location read frames read' frames') :
    SameKind frames frames' := by
  cases exchanged with
  | inside _ _ => exact sameKind_refl frames
  | outside _ outside =>
      cases outside with
      | item _ _ _ _ => exact .array ..
      | member _ _ _ _ _ _ => exact .object ..
      | outer frame _ => cases frame <;> constructor

end Frames

/-! ## (3) Runs -/

/-- **A value is exchanged in a state**: in what has been read on the way to it. -/
inductive StateExchanged (old new : Written) (location : Location) : State → State → Prop
  /-- A value is expected. -/
  | value {frames frames' : List Frame}
      (exchanged : FramesExchanged old new location frames frames') :
      StateExchanged old new location (.value frames) (.value frames')
  /-- A first item is expected. -/
  | firstItem {frames frames' : List Frame}
      (exchanged : FramesExchanged old new location frames frames') :
      StateExchanged old new location (.firstItem frames) (.firstItem frames')
  /-- A next item is expected. -/
  | nextItem {reversed reversed' : List Written} {frames frames' : List Frame}
      (exchanged : FramesExchanged old new location (.array reversed :: frames)
        (.array reversed' :: frames')) :
      StateExchanged old new location (.nextItem reversed frames) (.nextItem reversed' frames')
  /-- A first name is expected. -/
  | firstName {frames frames' : List Frame}
      (exchanged : FramesExchanged old new location frames frames') :
      StateExchanged old new location (.firstName frames) (.firstName frames')
  /-- A next name is expected, whatever it is. -/
  | nextName {reversed reversed' : List (List Piece × Written)} {frames frames' : List Frame}
      (exchanged : ∀ name, FramesExchanged old new location (.object reversed name :: frames)
        (.object reversed' name :: frames')) :
      StateExchanged old new location (.nextName reversed frames) (.nextName reversed' frames')
  /-- A colon is expected. -/
  | colon {reversed reversed' : List (List Piece × Written)} {name : List Piece}
      {frames frames' : List Frame}
      (exchanged : FramesExchanged old new location (.object reversed name :: frames)
        (.object reversed' name :: frames')) :
      StateExchanged old new location (.colon reversed name frames) (.colon reversed' name frames')
  /-- A value has been read. -/
  | after {read read' : Written} {frames frames' : List Frame}
      (exchanged : ReadExchanged old new location read frames read' frames') :
      StateExchanged old new location (.after read frames) (.after read' frames')

section Runs

variable {location : Location}

/-- A token that should start a value leads on alike. -/
theorem stepValue_exchanged {frames frames' : List Frame}
    (exchanged : FramesExchanged old new location frames frames') (token : Token) :
    Sum.LiftRel (StateExchanged old new location) (Exchanged old new location)
      (stepValue frames token) (stepValue frames' token) := by
  have read : ∀ read, StateExchanged old new location (.after read frames) (.after read frames') :=
    fun read => .after (.outside read exchanged)
  cases token with
  | openArray => exact .inl (.firstItem exchanged)
  | openObject => exact .inl (.firstName exchanged)
  | null => exact .inl (read _)
  | bool value => exact .inl (read _)
  | number value => exact .inl (read _)
  | string pieces => exact .inl (read _)
  | _ => exact .inr (exchanged.exchanged_enclose _)

/-- **A step leads on alike** from states in which a value is exchanged. -/
theorem step_exchanged {state state' : State}
    (exchanged : StateExchanged old new location state state') (token : Token) :
    Sum.LiftRel (StateExchanged old new location) (Exchanged old new location)
      (step state token) (step state' token) := by
  cases exchanged with
  | value exchanged => exact stepValue_exchanged exchanged token
  | firstItem exchanged =>
      -- a bracket closes an empty array, in which the value cannot stand
      rw [step, step]
      split
      · exact .inl (.after (.outside _ exchanged))
      · exact stepValue_exchanged (.outer _ exchanged) token
  | nextItem exchanged =>
      rw [step, step]
      split
      · exact .inr (exchanged.array .closedAfterComma).exchanged_enclose
      · exact stepValue_exchanged exchanged token
  | firstName exchanged =>
      cases token with
      | closeObject => exact .inl (.after (.outside _ exchanged))
      | string name => exact .inl (.colon (.outer _ exchanged))
      | _ => exact .inr (exchanged.exchanged_enclose _)
  | nextName exchanged =>
      cases token with
      | string name => exact .inl (.colon (exchanged name))
      | closeObject => exact .inr ((exchanged []).object .closedAfterComma).exchanged_enclose
      | _ => exact .inr ((exchanged []).object .unnamed).exchanged_enclose
  | colon exchanged =>
      rw [step, step]
      split
      · exact .inl (.value exchanged)
      · exact .inr (exchanged.exchanged_enclose _)
  | after exchanged =>
      -- what has been read becomes an entry of the innermost frame, whatever the token is
      cases exchanged.sameKind with
      | root => exact .inr exchanged.exchanged_enclose
      | array =>
          cases token with
          | comma => exact .inl (.nextItem exchanged.item)
          | closeArray => exact .inl (.after (exchanged.item.array .closed))
          | _ => exact .inr (exchanged.item.array .unseparated).exchanged_enclose
      | object =>
          cases token with
          | comma => exact .inl (.nextName exchanged.member)
          | closeObject => exact .inl (.after ((exchanged.member []).object .closed))
          | _ => exact .inr ((exchanged.member []).object .unseparated).exchanged_enclose

/-- A text that stops leaves trees in which the value is exchanged. -/
theorem stop_exchanged {state state' : State}
    (exchanged : StateExchanged old new location state state') :
    Exchanged old new location (stop state) (stop state') := by
  cases exchanged with
  | value exchanged => exact exchanged.exchanged_enclose _
  | firstItem exchanged => exact exchanged.exchanged_enclose _
  | nextItem exchanged => exact (exchanged.array .cutAfterComma).exchanged_enclose
  | firstName exchanged => exact exchanged.exchanged_enclose _
  | nextName exchanged => exact ((exchanged []).object .cutAfterComma).exchanged_enclose
  | colon exchanged => exact exchanged.exchanged_enclose _
  | after exchanged =>
      cases exchanged.sameKind with
      | root => exact exchanged.exchanged_enclose
      | array => exact (exchanged.item.array .cut).exchanged_enclose
      | object => exact ((exchanged.member []).object .cut).exchanged_enclose

/-- At the end of the text, the first part of a run is where it stops. -/
theorem fst_run_nil (state : State) : (run state []).1 = stop state := by
  by_cases ends : ∃ read, state = .after read []
  · obtain ⟨read, rfl⟩ := ends
    rfl
  · rw [run]
    exact fun read same => ends ⟨read, same⟩

/-- The tree of a run is that of its first step, or of the run behind it. -/
theorem fst_run_cons (state : State) (token : Token) (tokens : List Token) :
    (run state (token :: tokens)).1 =
      (step state token).elim (fun next => (run next tokens).1) id := by
  by_cases ends : ∃ read, state = .after read []
  · obtain ⟨read, rfl⟩ := ends
    rfl
  · rw [run]
    · cases step state token <;> rfl
    · exact fun read same => ends ⟨read, same⟩

/-- **A run leads on alike**: the trees differ in nothing but the value. -/
theorem run_exchanged {state state' : State}
    (exchanged : StateExchanged old new location state state') (tokens : List Token) :
    Exchanged old new location (run state tokens).1 (run state' tokens).1 := by
  induction tokens generalizing state state' with
  | nil =>
      rw [fst_run_nil, fst_run_nil]
      exact stop_exchanged exchanged
  | cons token tokens induction =>
      rw [fst_run_cons, fst_run_cons]
      have leads := step_exchanged exchanged token
      generalize step state token = next, step state' token = next' at leads
      cases leads with
      | inl next => exact induction next
      | inr trees => exact trees

end Runs

/-! ## (4) Texts -/

/-- A text **leads** from one state to another, whatever follows it. -/
def Leads (state next : State) (text : List Char) : Prop :=
  ∀ behind, run state (scanFrom (.run []) (text ++ behind)) =
    run next (scanFrom (.run []) behind)

/-- **A value stands in a text** at a location: the text before it leads to where a value is
awaited, inside open frames that are at the location, and its own text leads on to where it has been
read. -/
def StandsAt (location : Location) (value : Written) (before here : List Char) : Prop :=
  ∃ state frames, AwaitsValue state frames ∧ Locates frames location ∧
    Leads (.value []) state before ∧ Leads state (.after value frames) here

/-- Every text of an object is read as one tree, wherever a value is awaited. -/
theorem exists_leads_object {members : List (String × Json)} {text : List Char}
    (hasText : (Json.object members).HasText text) :
    ∃ read, Shows read (.object members) ∧
      ∀ state frames, AwaitsValue state frames → Leads state (.after read frames) text :=
  exists_object (fun member _ => isRead member.2) hasText

/-- **The text of a value is exchanged**: the trees of the two texts differ in nothing but the
value. -/
theorem exchanged_ofText {location : Location} {before here there : List Char}
    (stands : StandsAt location old before here)
    (reads : ∀ state frames, AwaitsValue state frames → Leads state (.after new frames) there)
    (behind : List Char) :
    Exchanged old new location (ofText (before ++ (here ++ behind))).1
      (ofText (before ++ (there ++ behind))).1 := by
  obtain ⟨state, frames, awaits, locates, leads, readsHere⟩ := stands
  rw [ofText, ofText, Token.scan, Token.scan, leads, leads, readsHere,
    reads state frames awaits]
  have whole : Exchanged old new [] old new := .here
  have inside := ReadExchanged.inside locates whole
  rw [List.append_nil] at inside
  exact run_exchanged (.after inside) _

end Written

end WireSchema.Json

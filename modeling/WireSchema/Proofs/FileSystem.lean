import Mathlib.Logic.Basic
import WireSchema.CommandLine.Execution
import WireSchema.Proofs.Members.Insertion
import WireSchema.Proofs.Runs

/-! # What writing leaves as it is

A text that has been saved is read back from its path, and every file at another location is read as
before (`read_of_save`, `read_of_save_other`). Saving makes directories where there are none and
replaces at most one file, so that whatever could be found before can be found then. -/

namespace WireSchema

open Members

/-! ## (1) Trees -/

namespace FileTree

/-- Inserting an entry leaves the entries of other names in place. -/
theorem find?_insertEntry_of_ne {name other : String} (different : name ≠ other) (tree : FileTree)
    (entries : List (String × FileTree)) :
    find? (insertEntry name tree entries) other = find? entries other := by
  induction entries with
  | nil => simp [insertEntry, find?_cons, different]
  | cons entry rest induction =>
      obtain ⟨first, old⟩ := entry
      rw [insertEntry]
      split
      · next same =>
          subst same
          simp [find?_cons, different]
      · split
        · simp [find?_cons, different]
        · simp [find?_cons, induction]

/-- Nothing is inside a file. -/
theorem at?_file {content : Option String} {place : List String} {tree : FileTree}
    (found : (FileTree.file content).at? place = some tree) :
    place = [] ∧ tree = .file content := by
  cases place with
  | nil =>
      cases found
      exact ⟨rfl, rfl⟩
  | cons name rest => cases found

/-- A longer path is followed part after part. -/
theorem at?_append (tree : FileTree) (front rest : List String) :
    tree.at? (front ++ rest) = (tree.at? front).bind fun inner => inner.at? rest := by
  induction front generalizing tree with
  | nil => rfl
  | cons name front induction =>
      rw [List.cons_append, at?, at?, Option.bind_assoc]
      exact Option.bind_congr fun entry _ => induction entry

/-- What an entry of a directory leads to. -/
theorem at?_concat {tree : FileTree} {before : List String} {entries : List (String × FileTree)}
    (found : tree.at? before = some (.directory entries)) (name : String) :
    tree.at? (before ++ [name]) = find? entries name := by
  rw [at?_append, found, Option.bind_some, at?]
  exact Option.bind_fun_some _

/-- **A tree is kept** by another one but for some places: what is there stays there, directories
stay directories, and files elsewhere keep their content. -/
structure Keeps (excepted : List String → Prop) (tree after : FileTree) : Prop where
  /-- Nothing gets lost. -/
  present : ∀ place, (tree.at? place).isSome → (after.at? place).isSome
  /-- Directories stay. -/
  directory : ∀ place entries, tree.at? place = some (.directory entries) →
    ∃ more, after.at? place = some (.directory more)
  /-- Files stay as they are, but for the exceptions. -/
  file : ∀ place content, tree.at? place = some (.file content) → ¬excepted place →
    after.at? place = some (.file content)

namespace Keeps

variable {excepted : List String → Prop} {tree middle after : FileTree}

/-- A tree keeps itself. -/
theorem refl (tree : FileTree) : tree.Keeps excepted tree :=
  ⟨fun _ => id, fun _ _ found => ⟨_, found⟩, fun _ _ found _ => found⟩

/-- What is kept in two steps is kept in both together. -/
theorem trans (early : tree.Keeps excepted middle) (late : middle.Keeps excepted after) :
    tree.Keeps excepted after where
  present place found := late.present place (early.present place found)
  directory place entries found := by
    obtain ⟨more, middleFound⟩ := early.directory place entries found
    exact late.directory place more middleFound
  file place content found plain :=
    late.file place content (early.file place content found plain) plain

/-- What is kept without exception is kept with any. -/
theorem mono (keeps : tree.Keeps (fun _ => False) after) : tree.Keeps excepted after :=
  ⟨keeps.present, keeps.directory, fun place content found _ => keeps.file place content found id⟩

/-- A file may be replaced where it is excepted. -/
theorem of_file {content : Option String} (isExcepted : excepted []) :
    (FileTree.file content).Keeps excepted after where
  present place found := by
    obtain ⟨tree, found⟩ := Option.isSome_iff_exists.mp found
    obtain ⟨rfl, _⟩ := at?_file found
    rfl
  directory place entries found := by cases (at?_file found).2
  file place content found plain := by
    obtain ⟨rfl, _⟩ := at?_file found
    exact absurd isExcepted plain

/-- A directory is kept when its entries are. -/
theorem of_entries {entries more : List (String × FileTree)}
    (each : ∀ name inner, find? entries name = some inner →
      ∃ later, find? more name = some later ∧
        inner.Keeps (fun rest => excepted (name :: rest)) later) :
    (FileTree.directory entries).Keeps excepted (.directory more) where
  present place found := by
    -- the directory stays one; any place below is a place in an entry
    cases place with
    | nil => rfl
    | cons name rest =>
        obtain ⟨tree, found⟩ := Option.isSome_iff_exists.mp found
        obtain ⟨inner, entryFound, below⟩ := Option.bind_eq_some_iff.mp found
        obtain ⟨later, laterFound, keeps⟩ := each name inner entryFound
        have present := keeps.present rest (by rw [below]; rfl)
        rw [at?, FileTree.entries, laterFound]
        exact present
  directory place inside found := by
    cases place with
    | nil => exact ⟨more, rfl⟩
    | cons name rest =>
        obtain ⟨inner, entryFound, below⟩ := Option.bind_eq_some_iff.mp found
        obtain ⟨later, laterFound, keeps⟩ := each name inner entryFound
        obtain ⟨insideLater, below⟩ := keeps.directory rest inside below
        refine ⟨insideLater, ?_⟩
        rw [at?, FileTree.entries, laterFound]
        exact below
  file place content found plain := by
    cases place with
    | nil => cases found
    | cons name rest =>
        obtain ⟨inner, entryFound, below⟩ := Option.bind_eq_some_iff.mp found
        obtain ⟨later, laterFound, keeps⟩ := each name inner entryFound
        rw [at?, FileTree.entries, laterFound]
        exact keeps.file rest content below plain

/-- One entry changes, and the others stay. -/
theorem of_insertEntry {entries : List (String × FileTree)} {name : String} {planted : FileTree}
    (here : ∀ inner, find? entries name = some inner →
      inner.Keeps (fun rest => excepted (name :: rest)) planted) :
    (FileTree.directory entries).Keeps excepted
      (.directory (insertEntry name planted entries)) := by
  refine .of_entries fun other inner found => ?_
  by_cases same : name = other
  · subst same
    exact ⟨planted, find?_insertEntry_self name planted entries, here inner found⟩
  · rw [find?_insertEntry_of_ne same]
    exact ⟨inner, found, .refl inner⟩

/-- **Putting a tree into a directory** keeps all but what stood in its place, which must be no
directory. -/
theorem of_place {before : List String} {entries : List (String × FileTree)} {name : String}
    (isDirectory : tree.at? before = some (.directory entries))
    (noDirectory : ∀ inner, find? entries name ≠ some (.directory inner)) (planted : FileTree) :
    tree.Keeps (· = before ++ [name]) (tree.place (before ++ [name]) planted) := by
  induction before generalizing tree with
  | nil =>
      cases isDirectory
      refine .of_insertEntry fun inner found => ?_
      cases inner with
      | file content => exact .of_file rfl
      | directory inner => exact absurd found (noDirectory inner)
  | cons first rest induction =>
      obtain ⟨inner, found, below⟩ := Option.bind_eq_some_iff.mp isDirectory
      cases tree with
      | file content => cases found
      | directory siblings =>
          have found : find? siblings first = some inner := found
          rw [List.cons_append, place, FileTree.entries, found]
          refine .of_insertEntry fun other otherFound => ?_
          rw [found] at otherFound
          cases otherFound
          have keeps := induction below
          simpa using keeps

end Keeps

end FileTree

/-! ## (2) Reading -/

namespace FileSystem

variable {files after : FileSystem} {excepted : List String → Prop}

/-- **A file system is kept** by another one with the same working directory, whose tree keeps the
tree of the first one but for some places. -/
structure Keeps (excepted : List String → Prop) (files after : FileSystem) : Prop where
  /-- Paths start at the same location. -/
  workingDirectory : after.workingDirectory = files.workingDirectory
  /-- The tree is kept. -/
  root : files.root.Keeps excepted after.root

namespace Keeps

variable {middle : FileSystem}

/-- A file system keeps itself. -/
theorem refl (files : FileSystem) : files.Keeps excepted files := ⟨rfl, .refl files.root⟩

/-- What is kept by two changes is kept by one after the other. -/
theorem trans (early : files.Keeps excepted middle) (late : middle.Keeps excepted after) :
    files.Keeps excepted after :=
  ⟨late.workingDirectory.trans early.workingDirectory, early.root.trans late.root⟩

/-- A change that keeps everything keeps all but the excepted places. -/
theorem mono (keeps : files.Keeps (fun _ => False) after) : files.Keeps excepted after :=
  ⟨keeps.workingDirectory, keeps.root.mono⟩

end Keeps

/-- A step of a walk starts from a directory and, unless the part is empty or made of dots, goes to
one of its entries. -/
theorem walk_cons_eq_ok_iff {location : List String} {part : String} {rest reached : List String} :
    files.walk location (part :: rest) = .ok reached ↔
      ∃ entries, files.root.at? location = some (.directory entries) ∧
        (part ≠ "" → part ≠ "." → part ≠ ".." → (find? entries part).isSome) ∧
        files.walk (Path.follow location part) rest = .ok reached := by
  rw [walk]
  cases files.root.at? location with
  | none => simp
  | some tree =>
      cases tree with
      | file content => simp
      | directory entries =>
          simp only [Path.follow]
          by_cases stays : part = "" ∨ part = "."
          · rw [if_pos stays, if_pos stays]
            rcases stays with rfl | rfl <;> simp
          · rw [if_neg stays, if_neg stays]
            obtain ⟨notEmpty, notPoint⟩ := not_or.mp stays
            by_cases up : part = ".."
            · rw [if_pos up, if_pos up]
              simp [up]
            · rw [if_neg up, if_neg up]
              cases found : find? entries part with
              | none => simp [contains, found, notEmpty, notPoint, up]
              | some inner => simp [contains, found]

/-- A walk along two stretches is the walk along the second from where the first ends. -/
theorem walk_append (files : FileSystem) (location front rest : List String) :
    files.walk location (front ++ rest) =
      (files.walk location front >>= fun middle => files.walk middle rest) := by
  induction front generalizing location with
  | nil => rfl
  | cons part front induction =>
      rw [List.cons_append, walk, walk]
      cases files.root.at? location with
      | none => rfl
      | some tree =>
          cases tree with
          | file content => rfl
          | directory entries =>
              simp only [induction]
              split
              · rfl
              · split
                · rfl
                · split
                  · rfl
                  · rfl

/-- Where a tree is kept, parts lead where they led. -/
theorem walk_of_keeps (keeps : files.root.Keeps excepted after.root)
    {location parts reached : List String} (walks : files.walk location parts = .ok reached) :
    after.walk location parts = .ok reached := by
  induction parts generalizing location with
  | nil => exact walks
  | cons part rest induction =>
      obtain ⟨entries, found, known, onward⟩ := walk_cons_eq_ok_iff.mp walks
      obtain ⟨more, foundAfter⟩ := keeps.directory location entries found
      refine walk_cons_eq_ok_iff.mpr ⟨more, foundAfter, fun notEmpty notPoint notUp => ?_,
        induction onward⟩
      -- the entry is still there
      have present := keeps.present (location ++ [part])
      rw [FileTree.at?_concat found, FileTree.at?_concat foundAfter] at present
      exact present (known notEmpty notPoint notUp)

/-- A path is located exactly if it is not empty and all its parts can be walked. -/
theorem locate_eq_ok_iff {path : String} {location : List String} :
    files.locate path = .ok location ↔
      path ≠ "" ∧ files.walk (files.start path) (Path.parts path) = .ok location := by
  rw [locate]
  by_cases empty : path = ""
  · simp [empty]
  · simp [empty]

/-- Where a path is located is what its parts say, whatever the tree holds. -/
theorem location_of_locate {path : String} {location : List String}
    (locates : files.locate path = .ok location) :
    location = Path.location files.workingDirectory path :=
  eq_foldl_of_walk (locate_eq_ok_iff.mp locates).2

/-- **A file is read** where its path leads. -/
theorem read_eq_ok_iff {path text : String} :
    files.read path = .ok text ↔ ∃ location, files.locate path = .ok location ∧
      files.root.at? location = some (.file (some text)) := by
  constructor
  · intro reads
    obtain ⟨tree, looksUp, reads⟩ := bind_eq_ok_iff.mp reads
    obtain ⟨location, locates, found⟩ := bind_eq_ok_iff.mp looksUp
    refine ⟨location, locates, ?_⟩
    cases atLocation : files.root.at? location with
    | none =>
        rw [atLocation] at found
        cases found
    | some inner =>
        rw [atLocation] at found
        cases found
        cases tree with
        | directory entries => cases reads
        | file content =>
            cases content with
            | none => cases reads
            | some text =>
                cases reads
                rfl
  · rintro ⟨location, locates, found⟩
    rw [read, lookUp, locates]
    simp only [ok_bind, found]
    rfl

/-- Where a file system is kept, a file at no excepted place is read as before. -/
theorem read_of_keeps (keeps : files.Keeps excepted after) {path text : String}
    (plain : ¬excepted (Path.location files.workingDirectory path))
    (reads : files.read path = .ok text) : after.read path = .ok text := by
  obtain ⟨location, locates, found⟩ := read_eq_ok_iff.mp reads
  obtain ⟨some, walks⟩ := locate_eq_ok_iff.mp locates
  have start : after.start path = files.start path := by
    rw [FileSystem.start, FileSystem.start, keeps.workingDirectory]
  refine read_eq_ok_iff.mpr ⟨location, locate_eq_ok_iff.mpr ⟨some, ?_⟩, ?_⟩
  · rw [start]
    exact walk_of_keeps keeps.root walks
  · refine keeps.root.file location _ found ?_
    rw [location_of_locate locates]
    exact plain

/-! ## (3) Writing -/

/-- **A text is written** into the directory that the path leads to but for its last part, unless
there is a directory in its place. -/
theorem write_eq_ok {path text : String} (writes : files.write path text = .ok after) :
    ∃ front name before entries, Path.parts path = front ++ [name] ∧
      name ≠ "" ∧ name ≠ "." ∧ name ≠ ".." ∧
      files.walk (files.start path) front = .ok before ∧
      files.root.at? before = some (.directory entries) ∧
      (∀ inner, find? entries name ≠ some (.directory inner)) ∧
      after = files.place (before ++ [name]) (.file (some text)) := by
  have some : Path.parts path ≠ [] := by simp [Path.parts]
  obtain ⟨front, name, split⟩ := (List.eq_nil_or_concat' (Path.parts path)).resolve_left some
  simp only [write, split, List.getLast?_concat, Option.getD_some, List.dropLast_concat] at writes
  split at writes
  · obtain ⟨_, _, never⟩ := bind_eq_ok_iff.mp writes
    cases never
  · next notEmpty =>
      -- the directory of the file is reached, and it is not a file itself
      obtain ⟨before, walks, writes⟩ := bind_eq_ok_iff.mp writes
      cases found : files.root.at? before with
      | none =>
          rw [found] at writes
          cases writes
      | some tree =>
          cases tree with
          | file content =>
              rw [found] at writes
              cases writes
          | directory entries =>
              simp only [found] at writes
              -- points as the last part would name a directory
              by_cases moves : name = "." ∨ name = ".."
              · rw [if_pos moves] at writes
                cases writes
              · rw [if_neg moves] at writes
                obtain ⟨notPoint, notUp⟩ := not_or.mp moves
                refine ⟨front, name, before, entries, split, notEmpty, notPoint, notUp, walks,
                  found, fun inner isDirectory => ?_, ?_⟩
                · rw [isDirectory] at writes
                  cases writes
                · split at writes
                  · cases writes
                  · cases writes
                    rfl

/-- Placing a tree in a directory changes nothing but the entry it is placed at. -/
theorem keeps_place {before : List String} {entries : List (String × FileTree)} {name : String}
    (isDirectory : files.root.at? before = some (.directory entries))
    (noDirectory : ∀ inner, find? entries name ≠ some (.directory inner)) (tree : FileTree) :
    files.Keeps (· = before ++ [name]) (files.place (before ++ [name]) tree) :=
  ⟨rfl, .of_place isDirectory noDirectory tree⟩

/-- A name that goes down leads on from where the parts before it lead. -/
theorem location_concat {path name : String} {front before : List String}
    (split : Path.parts path = front ++ [name]) (notEmpty : name ≠ "") (notPoint : name ≠ ".")
    (notUp : name ≠ "..") (walks : files.walk (files.start path) front = .ok before) :
    Path.location files.workingDirectory path = before ++ [name] := by
  rw [Path.location, split, List.foldl_append, ← FileSystem.start, ← eq_foldl_of_walk walks]
  simp [Path.follow, notEmpty, notPoint, notUp]

/-- **Writing keeps** all but the file that is written. -/
theorem keeps_of_write {path text : String} (writes : files.write path text = .ok after) :
    files.Keeps (· = Path.location files.workingDirectory path) after := by
  obtain ⟨front, name, before, entries, split, notEmpty, notPoint, notUp, walks, found, noDirectory,
    rfl⟩ := write_eq_ok writes
  rw [location_concat split notEmpty notPoint notUp walks]
  exact keeps_place found noDirectory _

/-- **What has been written is read back.** -/
theorem read_of_write {path text : String} (writes : files.write path text = .ok after) :
    after.read path = .ok text := by
  have keeps := keeps_of_write writes
  obtain ⟨front, name, before, entries, split, notEmpty, notPoint, notUp, walks, found, noDirectory,
    rfl⟩ := write_eq_ok writes
  have written : ((files.place (before ++ [name]) (.file (some text))).root.at?
      (before ++ [name])) = some (.file (some text)) := FileTree.at?_place _ _ _
  refine read_eq_ok_iff.mpr ⟨before ++ [name], locate_eq_ok_iff.mpr ⟨?_, ?_⟩, written⟩
  · rintro rfl
    -- the empty path has one part, which is empty
    have only : [""] = front ++ [name] := split
    obtain ⟨_, last⟩ := List.append_inj_right' (show [] ++ [""] = front ++ [name] from only) rfl
    exact notEmpty rfl
  · obtain ⟨more, foundAfter⟩ := keeps.root.directory before entries found
    rw [split, walk_append]
    show (files.place _ _).walk (files.start path) front >>= _ = _
    rw [walk_of_keeps keeps.root walks, ok_bind]
    refine walk_cons_eq_ok_iff.mpr ⟨more, foundAfter, fun _ _ _ => ?_, ?_⟩
    · rw [FileTree.at?_concat foundAfter] at written
      rw [written]
      rfl
    · simp [walk, Path.follow, notEmpty, notPoint, notUp]

/-! ## (4) Making directories -/

/-- Making a directory keeps everything. -/
theorem keeps_of_makeDirectory {start before : List String} {name : String}
    (makes : files.makeDirectory start before name = .ok after) :
    files.Keeps (fun _ => False) after := by
  rw [makeDirectory] at makes
  obtain ⟨location, _, makes⟩ := bind_eq_ok_iff.mp makes
  cases found : files.root.at? location with
  | none =>
      rw [found] at makes
      cases makes
  | some tree =>
      cases tree with
      | file content =>
          rw [found] at makes
          cases makes
      | directory entries =>
          simp only [found] at makes
          split at makes
          · cases makes
          · next isNew =>
              cases makes
              have absent : find? entries name = none := by
                simp only [not_or, contains, Option.isSome_iff_ne_none, ne_eq, not_not] at isNew
                exact isNew.2.2.2
              have keeps := keeps_place found (fun inner isDirectory => by
                rw [absent] at isDirectory
                cases isDirectory) .emptyDirectory
              -- nothing stood where the directory is made, so that there is no exception
              refine ⟨rfl, keeps.root.present, keeps.root.directory, fun place content held _ => ?_⟩
              refine keeps.root.file place content held ?_
              rintro rfl
              rw [FileTree.at?_concat found, absent] at held
              cases held

/-- Accepting a directory that stands already changes nothing. -/
theorem keeps_of_acceptDirectory {start parts : List String} {problem : FileProblem}
    (accepts : files.acceptDirectory start parts problem = .ok after) :
    files.Keeps (fun _ => False) after := by
  rw [acceptDirectory] at accepts
  split at accepts
  · split at accepts
    · cases accepts
      exact .refl files
    · cases accepts
  · cases accepts

/-- Making directories keeps everything. -/
theorem keeps_of_makeDirectories {start reversed : List String}
    (makes : makeDirectories start reversed files = .ok after) :
    files.Keeps (fun _ => False) after := by
  induction reversed generalizing files after with
  | nil =>
      cases makes
      exact .refl files
  | cons name reversed induction =>
      rw [makeDirectories] at makes
      split at makes
      · next made makesOne =>
          cases makes
          exact keeps_of_makeDirectory makesOne
      · obtain ⟨made, makesBefore, makes⟩ := bind_eq_ok_iff.mp makes
        refine (induction makesBefore).trans ?_
        split at makes
        · next makesOne =>
            cases makes
            exact keeps_of_makeDirectory makesOne
        · exact keeps_of_acceptDirectory makes
      · exact keeps_of_acceptDirectory makes

/-- Creating the directories of a path changes nothing that stands already. -/
theorem keeps_of_createDirectories {path : String}
    (creates : files.createDirectories path = .ok after) : files.Keeps (fun _ => False) after := by
  rw [createDirectories] at creates
  split at creates
  · cases creates
    exact .refl files
  · exact keeps_of_makeDirectories creates

end FileSystem

/-! ## (5) Saving -/

namespace CommandLine

variable {files after : FileSystem} {path text : String}

/-- A text is saved by writing it where its directories have been made. -/
theorem exists_write_of_save (saves : save files path text = .ok after) :
    ∃ prepared : FileSystem, files.Keeps (fun _ => False) prepared ∧
      prepared.write path text = .ok after := by
  rw [save] at saves
  cases parent : Path.parent? path with
  | none =>
      rw [parent] at saves
      exact ⟨files, .refl files, mapError_eq_ok_iff.mp saves⟩
  | some directory =>
      rw [parent] at saves
      obtain ⟨prepared, prepares, writes⟩ := bind_eq_ok_iff.mp saves
      exact ⟨prepared, FileSystem.keeps_of_createDirectories (mapError_eq_ok_iff.mp prepares),
        mapError_eq_ok_iff.mp writes⟩

/-- **Saving keeps** all but the file that is saved. -/
theorem keeps_of_save (saves : save files path text = .ok after) :
    files.Keeps (· = Path.location files.workingDirectory path) after := by
  obtain ⟨prepared, keeps, writes⟩ := exists_write_of_save saves
  have keepsBehind := FileSystem.keeps_of_write writes
  rw [keeps.workingDirectory] at keepsBehind
  exact keeps.mono.trans keepsBehind

/-- **What has been saved is read back.** -/
theorem read_of_save (saves : save files path text = .ok after) : after.read path = .ok text := by
  obtain ⟨prepared, _, writes⟩ := exists_write_of_save saves
  exact FileSystem.read_of_write writes

/-- **Saving leaves other files as they are.** -/
theorem read_of_save_other (saves : save files path text = .ok after) {other content : String}
    (apart : Path.location files.workingDirectory other ≠
      Path.location files.workingDirectory path)
    (reads : files.read other = .ok content) : after.read other = .ok content :=
  FileSystem.read_of_keeps (keeps_of_save saves) apart reads

end CommandLine

end WireSchema

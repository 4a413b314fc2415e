import WireSchema.Members

/-! # File trees

Files and directories as a finite tree. A file holds a text, or bytes that spell none. The entries
of a directory stand in ascending order of their names, which every operation here keeps. -/

namespace WireSchema

/-- **A file tree**. -/
inductive FileTree where
  /-- A file; there is no content if its bytes are not the UTF-8 form of a text. -/
  | file (content : Option String)
  /-- A directory with its named entries, in ascending order of the names. -/
  | directory (entries : List (String × FileTree))

namespace FileTree

/-- The directory without entries. -/
def emptyDirectory : FileTree := .directory []

/-- The entries of a directory; a file has none. -/
def entries : FileTree → List (String × FileTree)
  | .file _ => []
  | .directory entries => entries

/-- Whether a tree is a directory. -/
def isDirectory : FileTree → Bool
  | .file _ => false
  | .directory _ => true

/-- Write an entry at its place in the order of the names; an entry of the same name is replaced. -/
def insertEntry (name : String) (tree : FileTree) :
    List (String × FileTree) → List (String × FileTree)
  | [] => [(name, tree)]
  | (other, old) :: rest =>
      if name = other then (name, tree) :: rest
      else if name < other then (name, tree) :: (other, old) :: rest
      else (other, old) :: insertEntry name tree rest

/-- The tree at a location: the names of the entries to follow from the root on. -/
def at? (tree : FileTree) : List String → Option FileTree
  | [] => some tree
  | name :: rest => (Members.find? tree.entries name).bind fun entry => entry.at? rest

/-- Put a tree at a location. Directories on the way are made where there are none. -/
def place (tree : FileTree) (location : List String) (planted : FileTree) : FileTree :=
  match location with
  | [] => planted
  | name :: rest =>
      let entry := (Members.find? tree.entries name).getD emptyDirectory
      .directory (insertEntry name (place entry rest planted) tree.entries)

/-- What was written as an entry is found there. -/
@[simp] theorem find?_insertEntry_self (name : String) (tree : FileTree)
    (entries : List (String × FileTree)) :
    Members.find? (insertEntry name tree entries) name = some tree := by
  induction entries with
  | nil => simp [insertEntry, Members.find?_cons]
  | cons entry rest induction =>
      obtain ⟨other, old⟩ := entry
      by_cases same : name = other
      · simp [insertEntry, same, Members.find?_cons]
      · by_cases before : name < other
        · simp [insertEntry, same, before, Members.find?_cons]
        · simp [insertEntry, same, before, Members.find?_cons, Ne.symm same, induction]

/-- What was put at a location is found there. -/
@[simp] theorem at?_place (tree : FileTree) (location : List String) (planted : FileTree) :
    (tree.place location planted).at? location = some planted := by
  induction location generalizing tree with
  | nil => rfl
  | cons name rest induction => simp [at?, place, entries, induction]

end FileTree

end WireSchema

import WireSchema.FileTree
import WireSchema.Splitting

/-! # File systems

A file tree with a working directory, addressed by paths. A path is followed part by part: empty
parts and single points stay where they are, two points go up and stay at the root there, and every
part, even an empty one at the end, needs a directory to be looked up in. -/

namespace WireSchema

/-- Why a path cannot be used. -/
inductive FileProblem where
  /-- Nothing is there. -/
  | missing
  /-- There is something already that is no directory. -/
  | occupied
  /-- A file stands where a directory is needed. -/
  | notDirectory
  /-- A directory stands where a file is needed. -/
  | isDirectory
  /-- The bytes of the file spell no text. -/
  | notText
  deriving DecidableEq

/-- What a problem says. -/
def FileProblem.message : FileProblem → String
  | .missing => "No such file or directory (os error 2)"
  | .occupied => "File exists (os error 17)"
  | .notDirectory => "Not a directory (os error 20)"
  | .isDirectory => "Is a directory (os error 21)"
  | .notText => "stream did not contain valid UTF-8"

namespace Path

/-! ## (1) Paths -/

/-- The parts of a path between its slashes. -/
def parts (path : String) : List String :=
  (splitWhere (· == '/') path.toList).map String.ofList

/-- The path with the given parts; an empty part alone is the root. -/
def ofParts : List String → String
  | [""] => "/"
  | parts => "/".intercalate parts

/-- Whether a path starts at the root. -/
def isAbsolute (path : String) : Bool := path.toList.head? == some '/'

/-- Drop the empty parts and single points at the end, as far as a part remains. -/
def trimParts : List String → List String
  | [] => []
  | first :: rest =>
      first :: (rest.reverse.dropWhile fun part => part == "" || part == ".").reverse

/-- The path without its last part; the root and the empty path have none. -/
def parent? (path : String) : Option String :=
  match trimParts (parts path) with
  | [] | [""] => none
  | [_] => some ""
  | names => some (ofParts (trimParts names.dropLast))

/-- Whether a path without further parts names the working directory by a point. -/
def isPoint (path : String) : Bool := trimParts (parts path) == ["."]

/-- A path with a name behind it. -/
def push (path name : String) : String :=
  if path.isEmpty || path.toList.getLast? == some '/' then path ++ name else path ++ "/" ++ name

/-- The path to an entry of the directory at a path. The point that names the working directory is
left out. -/
def join (path name : String) : String := if isPoint path then name else push path name

/-- The location to which a part leads from a directory. -/
def follow (location : List String) (part : String) : List String :=
  if part = "" ∨ part = "." then location
  else if part = ".." then location.dropLast
  else location ++ [part]

/-- The location at which a path starts. -/
def start (workingDirectory : List String) (path : String) : List String :=
  if isAbsolute path then [] else workingDirectory

/-- The location to which a path leads. -/
def location (workingDirectory : List String) (path : String) : List String :=
  (parts path).foldl follow (start workingDirectory path)

end Path

/-- **A file system**: a tree and the location of the working directory in it. -/
structure FileSystem where
  /-- The tree, from the root of all paths on. -/
  root : FileTree
  /-- The names that lead from the root to the working directory. -/
  workingDirectory : List String

namespace FileSystem

/-! ## (2) Following paths -/

/-- The location that parts lead to. -/
def walk (files : FileSystem) : List String → List String → Except FileProblem (List String)
  | location, [] => .ok location
  | location, part :: rest =>
      match files.root.at? location with
      | none => .error .missing
      | some (.file _) => .error .notDirectory
      | some (.directory entries) =>
          if part = "" ∨ part = "." then walk files location rest
          else if part = ".." then walk files location.dropLast rest
          else if Members.contains entries part then walk files (location ++ [part]) rest
          else .error .missing

/-- The location at which the parts of a path start. -/
def start (files : FileSystem) (path : String) : List String :=
  Path.start files.workingDirectory path

/-- The location that a path leads to; the empty path leads nowhere. -/
def locate (files : FileSystem) (path : String) : Except FileProblem (List String) :=
  if path.isEmpty then .error .missing else files.walk (files.start path) (Path.parts path)

/-- Parts that can be followed lead to the location that they spell. -/
theorem eq_foldl_of_walk {files : FileSystem} {parts location reached : List String}
    (walked : files.walk location parts = .ok reached) :
    reached = parts.foldl Path.follow location := by
  induction parts generalizing location with
  | nil => simpa [walk] using walked.symm
  | cons part rest induction =>
      rw [walk] at walked
      rw [List.foldl_cons]
      split at walked
      · simp at walked
      · simp at walked
      · simp only [Path.follow]
        split at walked
        · rename_i stays
          simpa [stays] using induction walked
        · rename_i moves
          split at walked
          · rename_i up
            simpa [moves, up] using induction walked
          · rename_i down
            split at walked
            · simpa [moves, down] using induction walked
            · simp at walked

/-- The tree that a path leads to. -/
def lookUp (files : FileSystem) (path : String) : Except FileProblem FileTree := do
  match files.root.at? (← files.locate path) with
  | some tree => return tree
  | none => throw .missing

/-- Whether a path leads to something. -/
def isPresent (files : FileSystem) (path : String) : Bool := (files.lookUp path).isOk

/-- Whether a path leads to a directory. -/
def isDirectory (files : FileSystem) (path : String) : Bool :=
  match files.lookUp path with
  | .ok tree => tree.isDirectory
  | .error _ => false

/-- The text of the file at a path. -/
def read (files : FileSystem) (path : String) : Except FileProblem String := do
  match ← files.lookUp path with
  | .file (some text) => return text
  | .file none => throw .notText
  | .directory _ => throw .isDirectory

/-! ## (3) Writing -/

/-- Put a tree at a location. -/
def place (files : FileSystem) (location : List String) (tree : FileTree) : FileSystem :=
  { files with root := files.root.place location tree }

/-- Make the directory that the last of the parts names. -/
def makeDirectory (files : FileSystem) (start : List String) (before : List String)
    (name : String) : Except FileProblem FileSystem := do
  let location ← files.walk start before
  match files.root.at? location with
  | none => throw .missing
  | some (.file _) => throw .notDirectory
  | some (.directory entries) =>
      if name = "" ∨ name = "." ∨ name = ".." ∨ Members.contains entries name then throw .occupied
      else return files.place (location ++ [name]) .emptyDirectory

/-- The same files if the parts lead to a directory, else the given problem. -/
def acceptDirectory (files : FileSystem) (start parts : List String) (problem : FileProblem) :
    Except FileProblem FileSystem :=
  match files.walk start parts with
  | .ok location =>
      if ((files.root.at? location).map FileTree.isDirectory).getD false then .ok files
      else .error problem
  | .error _ => .error problem

/-- Make the directory that reversed parts lead to, and those on the way, where there are none. -/
def makeDirectories (start : List String) :
    List String → FileSystem → Except FileProblem FileSystem
  | [], files => .ok files
  | name :: reversed, files =>
      let parts := (name :: reversed).reverse
      match files.makeDirectory start reversed.reverse name with
      | .ok made => .ok made
      | .error .missing => do
          let made ← makeDirectories start reversed files
          match made.makeDirectory start reversed.reverse name with
          | .ok made => return made
          | .error problem => made.acceptDirectory start parts problem
      | .error problem => files.acceptDirectory start parts problem

/-- Make the directory at a path, and those on the way, where there are none. -/
def createDirectories (files : FileSystem) (path : String) : Except FileProblem FileSystem :=
  if path.isEmpty then .ok files
  else makeDirectories (files.start path) (Path.parts path).reverse files

/-- Write a text to the file at a path, whose directory has to be there. -/
def write (files : FileSystem) (path text : String) : Except FileProblem FileSystem := do
  let parts := Path.parts path
  let start := files.start path
  match parts.getLast?.getD "" with
  | "" =>
      let names := (parts.reverse.dropWhile (· == "")).reverse
      let _ ← files.walk start names.dropLast
      throw .isDirectory
  | name =>
      let location ← files.walk start parts.dropLast
      match files.root.at? location with
      | none => throw .missing
      | some (.file _) => throw .notDirectory
      | some (.directory entries) =>
          if name = "." ∨ name = ".." then throw .isDirectory
          else
            match Members.find? entries name with
            | some (.directory _) => throw .isDirectory
            | _ => return files.place (location ++ [name]) (.file (some text))

end FileSystem

end WireSchema

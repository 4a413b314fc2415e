import WireSchema.FileSystem
import WireSchema.Glob.Parser

/-! # What a glob matches

The matches of a glob are found in the order of a walk that looks at a directory before its
entries and at entries in the order of their names. -/

namespace WireSchema

/-- Something below a directory: its path and its name. -/
structure FileTree.Place where
  /-- The path, as it was built on the way down. -/
  path : String
  /-- The last name of the path. -/
  name : String
  /-- What is there. -/
  tree : FileTree

namespace FileTree

mutual

/-- Everything below the tree at a path, each directory before its entries. -/
def placesBelow (path : String) : FileTree → List Place
  | .file _ => []
  | .directory entries => entryPlaces path entries

/-- The entries of the directory at a path, each with everything below it. -/
def entryPlaces (path : String) : List (String × FileTree) → List Place
  | [] => []
  | (name, tree) :: rest =>
      let entryPath := Path.join path name
      ⟨entryPath, name, tree⟩ :: placesBelow entryPath tree ++ entryPlaces path rest

end

end FileTree

namespace Glob

/-- The tree at a path, if the path leads to one. -/
def treeAt (files : FileSystem) (path : String) : FileTree :=
  (files.lookUp path).toOption.getD .emptyDirectory

/-- The entries of a directory that tokens match. -/
def matchingEntries (files : FileSystem) (tokens : List Token) (path : String) : List String :=
  ((treeAt files path).entries.filter fun entry => Token.matchAll tokens entry.1.toList).map
    fun entry => Path.join path entry.1

/-- The paths to the directory itself and to the one above it, as far as tokens that start with a
point match their names; the one above comes first. -/
def matchingPoints (tokens : List Token) (path : String) : List String :=
  if tokens.head? = some (.char '.') then
    ([['.', '.'], ['.']].filter (Token.matchAll tokens)).map fun name =>
      Path.push path (String.ofList name)
  else []

/-- The paths that a name leads to from a directory. A plain name is taken as it is written. -/
def step (files : FileSystem) (tokens : List Token) (path : String) : List String :=
  match Token.literal? tokens with
  | some letters =>
      let name := String.ofList letters
      let next := Path.join path name
      let isThere :=
        if name = "." ∨ name = ".." then files.isDirectory path else files.isPresent next
      if isThere then [next] else []
  | none =>
      if files.isDirectory path then matchingPoints tokens path ++ matchingEntries files tokens path
      else []

/-- The paths that parts lead to from a path. -/
def matchesFrom (files : FileSystem) : List Part → String → List String
  | [], path => [path]
  | .name tokens :: parts, path => (step files tokens path).flatMap (matchesFrom files parts)
  | [.below], path =>
      (((treeAt files path).placesBelow path).filter fun place => place.tree.isDirectory).map
        FileTree.Place.path
  -- going down twice is going down once
  | .below :: .below :: parts, path => matchesFrom files (.below :: parts) path
  | .below :: .name tokens :: parts, path =>
      (((treeAt files path).placesBelow path).filter fun place =>
        Token.matchAll tokens place.name.toList).flatMap fun place =>
          matchesFrom files parts place.path

/-- The path at which a glob starts. -/
def start (glob : Glob) : String := if glob.isAbsolute then "/" else "."

/-- The paths that a glob matches. -/
def matchingPaths (files : FileSystem) (glob : Glob) : List String :=
  let found := matchesFrom files glob.parts glob.start
  if glob.needsDirectory then found.filter files.isDirectory else found

/-- The path to which the plain names at the start of parts lead. -/
def plainPath (path : String) : List Part → String
  | .name tokens :: parts =>
      match Token.literal? tokens with
      | some letters => plainPath (Path.join path (String.ofList letters)) parts
      | none => path
  | _ => path

/-- The path below which all matches of a glob are. -/
def base (glob : Glob) : String := plainPath glob.start glob.parts

end Glob

end WireSchema

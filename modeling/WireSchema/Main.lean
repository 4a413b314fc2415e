import WireSchema.CommandLine.Arguments
import WireSchema.CommandLine.Run

/-! # The program

Takes a picture of the files that a command line mentions, runs the command on it, and prints and
writes what the outcome says. -/

namespace WireSchema.CommandLine

/-- More names than a path can have. -/
def longestPath : Nat := 4096

/-- The place of a location on the disk. -/
def entryAt (location : List String) : IO.FS.DirEntry :=
  ⟨Path.ofParts ("" :: location.dropLast), location.getLast?.getD "."⟩

/-- What is found on the disk; the entries of a directory are left out. -/
def found? (entry : IO.FS.DirEntry) : IO (Option FileTree) := do
  if ← entry.path.isDir then return some .emptyDirectory
  else if ← entry.path.pathExists then
    return some (.file (String.fromUTF8? (← IO.FS.readBinFile entry.path)))
  else return none

/-- The names that are found on the disk down to a depth; the contents of files are left out. -/
def names : Nat → IO.FS.DirEntry → IO FileTree
  | 0, _ => return .file none
  | depth + 1, entry => do
      if ← entry.path.isDir then
        let entries ← (← entry.path.readDir).toList.mapM fun inner => do
          return (inner.fileName, ← names depth inner)
        return .directory (entries.foldl (fun all inner =>
          FileTree.insertEntry inner.1 inner.2 all) [])
      else return .file none

/-- Add what is found on the way along parts from a location, and at the end. -/
def addAlong (location : List String) : List String → FileTree → IO FileTree
  | [], root => return root
  | part :: rest, root => do
      let next := Path.follow location part
      match ← found? (entryAt next) with
      | none => return root
      | some tree =>
          let isKnown := tree.isDirectory && ((root.at? next).map FileTree.isDirectory).getD false
          addAlong next rest (if isKnown then root else root.place next tree)

/-- Add what is found along a path. -/
def addPath (workingDirectory : List String) (root : FileTree) (path : String) : IO FileTree :=
  addAlong (Path.start workingDirectory path) (Path.parts path) root

/-- Add the names below the path at which the matches of an input are. -/
def addNames (workingDirectory : List String) (root : FileTree) (input : String) : IO FileTree := do
  match (if Glob.isGlob input then (Glob.parse input).toOption else none) with
  | none => return root
  | some glob =>
      let location := Path.location workingDirectory glob.base
      let entry := entryAt location
      let grown ← addPath workingDirectory root glob.base
      if ← entry.path.isDir then return grown.place location (← names longestPath entry)
      else return grown

/-- The files that a command mentions. -/
def picture (command : Command) : IO FileSystem := do
  let directory ← IO.currentDir
  let workingDirectory := (Path.parts directory.toString).filter (· != "")
  let start ← addAlong [] workingDirectory .emptyDirectory
  let (named, paths) ←
    match command with
    | .inspect request => pure (start, request.schema :: request.out.toList)
    | .transcode request => do
        let named ← request.inputs.foldlM (addNames workingDirectory) start
        let inputs := (allFilesOf ⟨named, workingDirectory⟩ request.inputs).toOption.getD []
        pure (named, request.schema :: request.out.toList ++ inputs)
  return ⟨← paths.foldlM (addPath workingDirectory) named, workingDirectory⟩

/-- Print and write what an outcome says, and give the exit code. -/
def carryOut (outcome : Outcome) : IO UInt32 := do
  (← IO.getStderr).putStr outcome.notices
  if let some (path, text) := outcome.written then
    if let some parent := Path.parent? path then
      if !parent.isEmpty then IO.FS.createDirAll parent
    IO.FS.writeFile path text
  (← IO.getStdout).putStr outcome.output
  match outcome.failure with
  | none => return 0
  | some failure =>
      IO.eprintln s!"error: {failure}"
      return 1

/-- How the program is called. -/
def usage : String :=
  "usage: [-v] inspect -s SCHEMA [--original] [-o OUT]\n" ++
  "       [-v] encode|decode -s SCHEMA -i INPUT... [--ndjson] [--json-pointer POINTER]\n" ++
  "            [--jq-expr FILTER] [--fail-fast] [-o OUT]\n"

end WireSchema.CommandLine

open WireSchema CommandLine in
/-- Run the command that the words of the command line name. -/
def main (words : List String) : IO UInt32 := do
  match CommandLine.read words with
  | .error .help =>
      (← IO.getStdout).putStr usage
      return 0
  | .error _ =>
      (← IO.getStderr).putStr usage
      return 2
  | .ok command => carryOut (run (← picture command) command)

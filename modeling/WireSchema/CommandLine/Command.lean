import WireSchema.Side

/-! # Commands

What a command line can ask for: to print a schema, or to carry documents through one. -/

namespace WireSchema.CommandLine

/-- The request to print a schema. -/
structure Inspection where
  /-- The path of the schema document. -/
  schema : String
  /-- Whether the schema is printed as it was loaded, with its renames not yet applied. -/
  isAsLoaded : Bool
  /-- The path to write to; without it the text is printed. -/
  out : Option String
  deriving DecidableEq

/-- The request to carry documents through a schema. -/
structure Transcription where
  /-- The direction. -/
  direction : Direction
  /-- The path of the schema document. -/
  schema : String
  /-- The paths and globs of the inputs. -/
  inputs : List String
  /-- Whether inputs and output hold one document per line. -/
  isLineByLine : Bool
  /-- The pointer to the part of each document that is taken. -/
  pointer : Option String
  /-- The filter that each document, or the part of it, is put through. -/
  filter : Option String
  /-- The path to write to; without it the text is printed. -/
  out : Option String
  /-- Whether the first failing document ends the run. -/
  stopsAtFailure : Bool
  deriving DecidableEq

/-- **A command**. -/
inductive Command where
  /-- Print a schema. -/
  | inspect (request : Inspection)
  /-- Carry documents through a schema. -/
  | transcode (request : Transcription)
  deriving DecidableEq

/-- Why a command line names no command. -/
inductive UsageProblem where
  /-- It asks for help. -/
  | help
  /-- There is nothing in it. -/
  | nothing
  /-- No command is named. -/
  | missingCommand
  /-- A word stands in the place of a command and is none. -/
  | unknownCommand
  /-- The command has no such argument. -/
  | unknownArgument
  /-- An argument that the command needs is not given. -/
  | missingArgument
  /-- An argument is given without its value, or with a path that is empty. -/
  | missingValue
  /-- An argument that may be given once is given again. -/
  | repeatedArgument
  /-- A value is given to an argument that takes none. -/
  | unexpectedValue
  deriving DecidableEq

end WireSchema.CommandLine

import WireSchema.CommandLine.Execution
import WireSchema.Filter.Parser

/-! # Running commands with the filters of this library -/

namespace WireSchema.CommandLine

/-- Run a command with the filters that this library reads itself. -/
def run (files : FileSystem) (command : Command) : Outcome :=
  runWith Filter.language files command

end WireSchema.CommandLine

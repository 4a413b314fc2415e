import WireSchema.CommandLine.Command

/-! # Reading command lines

A command line is a command word with arguments behind it. Arguments are **flags**, which stand
alone, and **settings**, which take values: behind an equals sign, behind the letter of the setting,
or in the words that follow. A setting is only settled when the next argument starts or the line
ends, and what is wrong with it is noticed then; unknown arguments and values for flags are noticed
at once. -/

namespace WireSchema.CommandLine

/-! ## (1) Arguments -/

/-- The command words. -/
inductive Verb where
  /-- Print a schema. -/
  | inspect
  /-- Carry documents through a schema. -/
  | transcode (direction : Direction)
  deriving DecidableEq

/-- The command that a word names. -/
def Verb.ofName? : String → Option Verb
  | "inspect" => some .inspect
  | "encode" => some (.transcode .encode)
  | "decode" => some (.transcode .decode)
  | _ => none

/-- The command word that asks for help on the others. -/
def helpWord : String := "help"

/-- The arguments that take no value. -/
inductive Flag where
  /-- Ask for help. -/
  | help
  /-- Report more; may be given any number of times. -/
  | verbose
  /-- Print the schema as it was loaded. -/
  | asLoaded
  /-- One document per line. -/
  | lineByLine
  /-- Stop at the first failing document. -/
  | failFast
  deriving DecidableEq

/-- The arguments that take values. -/
inductive Setting where
  /-- The path of the schema document. -/
  | schema
  /-- The path to write to. -/
  | out
  /-- A pointer into each document. -/
  | pointer
  /-- A filter for each document. -/
  | filter
  /-- The inputs; may be given any number of times, with any number of values. -/
  | input
  deriving DecidableEq

/-- Whether the values of a setting are paths, which are not empty. -/
def Setting.isPath : Setting → Bool
  | .schema | .out => true
  | .pointer | .filter | .input => false

/-- An argument of a command. -/
inductive Argument where
  /-- One without value. -/
  | flag (flag : Flag)
  /-- One with values. -/
  | setting (setting : Setting)
  deriving DecidableEq

/-- The argument of a long name that all commands have. -/
def Argument.sharedNamed? : String → Option Argument
  | "verbose" => some (.flag .verbose)
  | "help" => some (.flag .help)
  | _ => none

/-- The argument of a long name. -/
def Argument.named? : Verb → String → Option Argument
  | _, "schema" => some (.setting .schema)
  | _, "out" => some (.setting .out)
  | .inspect, "original" => some (.flag .asLoaded)
  | .transcode _, "ndjson" => some (.flag .lineByLine)
  | .transcode _, "json-pointer" => some (.setting .pointer)
  | .transcode _, "jq-expr" => some (.setting .filter)
  | .transcode _, "input" => some (.setting .input)
  | .transcode _, "fail-fast" => some (.flag .failFast)
  | _, name => sharedNamed? name

/-- The argument of a letter that all commands have. -/
def Argument.sharedLettered? : Char → Option Argument
  | 'v' => some (.flag .verbose)
  | 'h' => some (.flag .help)
  | _ => none

/-- The argument of a letter. -/
def Argument.lettered? : Verb → Char → Option Argument
  | _, 's' => some (.setting .schema)
  | _, 'o' => some (.setting .out)
  | .transcode _, 'i' => some (.setting .input)
  | _, letter => sharedLettered? letter

/-! ## (2) Words -/

/-- The shape of a word. -/
inductive Shape where
  /-- Two dashes: no argument follows. -/
  | escape
  /-- A long name, perhaps with a value behind an equals sign. -/
  | named (name : String) (value : Option String)
  /-- Letters behind a dash. -/
  | lettered (letters : List Char)
  /-- Anything else, a single dash included. -/
  | plain
  deriving DecidableEq

/-- The part of a text before its first equals sign, and the part behind it. -/
def splitValue (text : List Char) : List Char × Option (List Char) :=
  match text.span (· != '=') with
  | (name, []) => (name, none)
  | (name, _ :: value) => (name, some value)

/-- The shape of a word. -/
def shape (word : String) : Shape :=
  match word.toList with
  | ['-', '-'] => .escape
  | '-' :: '-' :: text =>
      let (name, value) := splitValue text
      .named (String.ofList name) (value.map String.ofList)
  | '-' :: letter :: letters => .lettered (letter :: letters)
  | _ => .plain

/-! ## (3) Arguments of a command -/

/-- The arguments read so far. -/
structure Reading where
  /-- The flags given; those that may be repeated are not kept. -/
  flags : List Flag
  /-- The settings given, each with its values. -/
  settings : List (Setting × List String)
  /-- A setting that is not settled yet, with its values so far. -/
  pending : Option (Setting × List String)

namespace Reading

/-- Nothing read yet. -/
def empty : Reading := ⟨[], [], none⟩

/-- Add a setting with its values. -/
def accept (reading : Reading) (setting : Setting) (values : List String) :
    Except UsageProblem Reading :=
  let isGiven := reading.settings.any fun given => given.1 == setting
  -- the value is missed before the repetition is noticed
  if values.isEmpty then .error .missingValue
  else if setting ≠ .input ∧ isGiven then .error .repeatedArgument
  else if setting.isPath && values.any String.isEmpty then .error .missingValue
  else .ok { reading with settings := reading.settings ++ [(setting, values)] }

/-- Settle the setting that is not settled yet. -/
def settle (reading : Reading) : Except UsageProblem Reading :=
  match reading.pending with
  | none => .ok reading
  | some (setting, values) => { reading with pending := none }.accept setting values

/-- Add a flag. -/
def giveFlag (reading : Reading) (flag : Flag) : Except UsageProblem Reading := do
  let settled ← reading.settle
  match flag with
  -- help is given at once, but not before the last setting has been settled
  | .help => throw .help
  | .verbose => return settled
  | _ =>
      if flag ∈ settled.flags then throw .repeatedArgument
      else return { settled with flags := flag :: settled.flags }

/-- Add a setting whose value stands in the same word. -/
def giveValue (reading : Reading) (setting : Setting) (value : String) :
    Except UsageProblem Reading := do
  (← reading.settle).accept setting [value]

/-- Add a setting whose values follow. -/
def openSetting (reading : Reading) (setting : Setting) : Except UsageProblem Reading := do
  return { (← reading.settle) with pending := some (setting, []) }

/-- Add a plain word: the value of a setting that takes more. -/
def giveWord (reading : Reading) (word : String) : Except UsageProblem Reading :=
  match reading.pending with
  | some (setting, values) =>
      -- inputs take any number of words, all other settings one
      if values.isEmpty || setting == .input then
        .ok { reading with pending := some (setting, values ++ [word]) }
      else .error .unknownArgument
  | none => .error .unknownArgument

/-- Add a long name, perhaps with a value. -/
def giveName (verb : Verb) (reading : Reading) (name : String) (value : Option String) :
    Except UsageProblem Reading :=
  match Argument.named? verb name, value with
  | none, _ => .error .unknownArgument
  | some (.flag _), some _ => .error .unexpectedValue
  | some (.flag flag), none => reading.giveFlag flag
  | some (.setting setting), some value => reading.giveValue setting value
  | some (.setting setting), none => reading.openSetting setting

/-- The value that stands behind the letter of a setting, with or without an equals sign. -/
def valueBehind : List Char → String
  | '=' :: value => String.ofList value
  | value => String.ofList value

/-- Add letters; the first one that belongs to a setting has its value behind it. -/
def giveLetters (verb : Verb) : List Char → Reading → Except UsageProblem Reading
  | [], reading => .ok reading
  | letter :: rest, reading =>
      match Argument.lettered? verb letter with
      | none => .error .unknownArgument
      | some (.flag flag) => do giveLetters verb rest (← reading.giveFlag flag)
      | some (.setting setting) =>
          if rest.isEmpty then reading.openSetting setting
          else reading.giveValue setting (valueBehind rest)

/-- Add the words behind the command word. -/
def giveWords (verb : Verb) : List String → Reading → Except UsageProblem Reading
  | [], reading => reading.settle
  | word :: rest, reading =>
      match shape word with
      -- no command takes words of its own, so none may stand behind two dashes
      | .escape => if rest.isEmpty then reading.settle else .error .unknownArgument
      | .named name value => do giveWords verb rest (← giveName verb reading name value)
      | .lettered letters => do giveWords verb rest (← giveLetters verb letters reading)
      | .plain => do giveWords verb rest (← reading.giveWord word)

/-- All values of a setting. -/
def values (reading : Reading) (setting : Setting) : List String :=
  (reading.settings.filter fun given => given.1 == setting).flatMap Prod.snd

/-- The value of a setting that is given at most once. -/
def value? (reading : Reading) (setting : Setting) : Option String :=
  (reading.values setting).head?

/-- The command that the arguments make. -/
def command (verb : Verb) (reading : Reading) : Except UsageProblem Command :=
  match reading.value? .schema, verb with
  | none, _ => .error .missingArgument
  | some schema, .inspect =>
      .ok (.inspect ⟨schema, Flag.asLoaded ∈ reading.flags, reading.value? .out⟩)
  | some schema, .transcode direction =>
      let inputs := reading.values .input
      if inputs.isEmpty then .error .missingArgument
      else
        .ok (.transcode ⟨direction, schema, inputs, Flag.lineByLine ∈ reading.flags,
          reading.value? .pointer, reading.value? .filter, reading.value? .out,
          Flag.failFast ∈ reading.flags⟩)

end Reading

/-! ## (4) Command lines -/

/-- The problem of a line that ends before a command; `isStarted` says that there were arguments. -/
def commandExpected (isStarted : Bool) : UsageProblem :=
  if isStarted then .missingCommand else .nothing

/-- The answer to a request for help on the commands that words name. -/
def helpOn : List String → UsageProblem
  | [] => .help
  | [word] => if (Verb.ofName? word).isSome ∨ word = helpWord then .help else .unknownCommand
  | _ => .unknownCommand

/-- The problem of the words behind two dashes, where no command may stand. -/
def escaped (isStarted : Bool) : List String → UsageProblem
  | [] => commandExpected isStarted
  | word :: _ =>
      if (Verb.ofName? word).isSome ∨ word = helpWord then .unknownArgument else .unknownCommand

/-- The problem of letters before the command word, if there is one. -/
def lettersProblem? : List Char → Option UsageProblem
  | [] => none
  | letter :: rest =>
      match Argument.sharedLettered? letter with
      | some (.flag .verbose) => lettersProblem? rest
      | some (.flag .help) => some .help
      | _ => some .unknownArgument

/-- The problem of a long name before the command word, if there is one. -/
def nameProblem? (name : String) (value : Option String) : Option UsageProblem :=
  match Argument.sharedNamed? name, value with
  | some (.flag _), some _ => some .unexpectedValue
  | some (.flag .verbose), none => none
  | some (.flag .help), none => some .help
  | _, _ => some .unknownArgument

/-- The command that the words of a line name; `isStarted` says that there were arguments. -/
def readFrom (isStarted : Bool) : List String → Except UsageProblem Command
  | [] => .error (commandExpected isStarted)
  | word :: rest =>
      match shape word with
      | .escape => .error (escaped isStarted rest)
      | .named name value =>
          match nameProblem? name value with
          | some problem => .error problem
          | none => readFrom true rest
      | .lettered letters =>
          match lettersProblem? letters with
          | some problem => .error problem
          | none => readFrom true rest
      | .plain =>
          match Verb.ofName? word with
          -- from here on the arguments are those of the command
          | some verb => do Reading.command verb (← Reading.giveWords verb rest .empty)
          | none => .error (if word = helpWord then helpOn rest else .unknownCommand)

/-- **Read a command line**, given as the words behind the name of the program. -/
def read (words : List String) : Except UsageProblem Command := readFrom false words

end WireSchema.CommandLine

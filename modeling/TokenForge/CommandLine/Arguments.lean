import TokenForge.CommandLine.Options

/-!
# The command line

`[-v] [--openzeppelin DIRECTORY] [--include DIRECTORY]… COMMAND …`, where the
command is one of

* `generate CONFIG [--flatten] [--output FILE]`, also called `gen`,
* `flatten --path FILE [--output FILE]`,
* `compile CONFIG [--solc-version VERSION] [--install-solc] [--output FILE]`.

Options before the command belong to all commands.  Every option can be given
more than once; the last value counts, and the directories of `--include` add
up.  A value that stands for none takes back an earlier value; the path of
`flatten` and a directory of `--include` may be given so, though no command can
work with it.
-/

namespace TokenForge

namespace CommandLine

/-- What a command is asked to do. -/
inductive Command where
  /-- Generate the source of a token, and flatten it if asked to. -/
  | generate (config : Text) (flatten : Bool) (output : Option Text)
  /-- Flatten a source, whose path may have been given without a value. -/
  | flatten (path : Option Text) (output : Option Text)
  /-- Generate and compile a token. -/
  | compile (config : Text) (version : Option Text) (install : Bool) (output : Option Text)
  deriving DecidableEq, Repr

/-- The arguments of a run. -/
structure Arguments where
  /-- Whether everything is reported. -/
  verbose : Bool
  /-- The directory of the shared contract library. -/
  library : Option Text
  /-- The directories to search for imported files; none for one given without a value. -/
  directories : List (Option Text)
  command : Option Command
  deriving DecidableEq, Repr

/-! ## Options -/

/-- What the options set. -/
inductive Setting where
  | verbose
  | library
  | directory
  | flatten
  | output
  | path
  | version
  | install
  deriving DecidableEq, Repr

/-- The call for help. -/
def helpSwitch : Switch Setting := ⟨none, ["-h", "--help"], false⟩

/-- An option without a value. -/
def flag (setting : Setting) (names : List Text) : Switch Setting := ⟨some setting, names, false⟩

/-- An option with a value. -/
def valued (setting : Setting) (name : Text) : Switch Setting := ⟨some setting, [name], true⟩

/-- The options before the command. -/
def mainLevel : Level Setting where
  switches := [helpSwitch, flag .verbose ["-v", "--verbose"], valued .library "--openzeppelin",
    valued .directory "--include"]
  expects := .command

/-- The options of `generate`. -/
def generateLevel : Level Setting where
  switches := [helpSwitch, flag .flatten ["--flatten"], valued .output "--output"]
  expects := .word

/-- The options of `flatten`. -/
def flattenLevel : Level Setting where
  switches := [helpSwitch, valued .path "--path", valued .output "--output"]
  expects := .nothing

/-- The options of `compile`. -/
def compileLevel : Level Setting where
  switches := [helpSwitch, valued .version "--solc-version", flag .install ["--install-solc"],
    valued .output "--output"]
  expects := .word

/-! ## Settings -/

/-- The values of a setting, oldest first. -/
def Reading.values (reading : Reading Setting) (setting : Setting) : List (Option Text) :=
  (reading.settings.filter fun s => s.1 == setting).map Prod.snd

/-- The last value of a setting. -/
def Reading.value? (reading : Reading Setting) (setting : Setting) : Option Text :=
  (reading.values setting).getLast?.join

/-- Whether an option is given. -/
def Reading.isSet (reading : Reading Setting) (setting : Setting) : Bool :=
  !(reading.values setting).isEmpty

/-- The word beside the options, which has to be there. -/
def Reading.word (reading : Reading Setting) : Except Stop Text :=
  match reading.words with
  | some [word] => .ok word
  | _ => .error .wrongUse

/-! ## Commands -/

/-- Reads the arguments of a command.  The flag tells whether there are arguments too many. -/
def readCommand (name : Text) (arguments : List Text) : Except Stop (Command × Bool) := do
  if name = String.toList "generate" ∨ name = String.toList "gen" then
    let reading ← generateLevel.read arguments
    let config ← reading.word
    return (.generate config (reading.isSet .flatten) (reading.value? .output), reading.excess)
  else if name = String.toList "flatten" then
    let reading ← flattenLevel.read arguments
    if reading.isSet .path then
      return (.flatten (reading.value? .path) (reading.value? .output), reading.excess)
    else throw .wrongUse
  else if name = String.toList "compile" then
    let reading ← compileLevel.read arguments
    let config ← reading.word
    return (.compile config (reading.value? .version) (reading.isSet .install)
      (reading.value? .output), reading.excess)
  else throw .wrongUse

/-- Reads a command line. -/
def readArguments (arguments : List Text) : Except Stop Arguments := do
  let reading ← mainLevel.read arguments
  let (command, excess) ← match reading.words with
    | some (name :: rest) => do
      let (command, excess) ← readCommand name rest
      pure (some command, excess)
    | _ => pure (none, false)
  if reading.excess || excess then throw .wrongUse
  return {
    verbose := reading.isSet .verbose
    library := reading.value? .library
    directories := reading.values .directory
    command }

end CommandLine

end TokenForge

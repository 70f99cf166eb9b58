import TokenForge.CommandLine.Arguments
import TokenForge.CommandLine.Log
import TokenForge.Json.Printer
import TokenForge.Json.Reader
import TokenForge.Token.Source

/-!
# Running a command

A run reads files of a file tree, computes a text and writes it to the standard
output or to one file.  Nothing is written before everything else has been done,
so a run that fails leaves the tree as it was.

A fault is either reported, as an error in the log, or it escapes: a
configuration that is no JSON object, a file that is not UTF-8, or an option
whose value stands for none where one is needed, ends the run without a report.
`Fault.report?` tells which.
-/

namespace TokenForge

namespace CommandLine

/-! ## Faults -/

/-- Why a command fails. -/
inductive Fault where
  | opening (path : Text) (fault : OpenFault)
  /-- The path of the file to flatten has no value. -/
  | targetWithoutValue
  /-- A directory to search has no value. -/
  | directoryWithoutValue
  | noTarget (path : Text)
  | decoding (fault : Utf8.Fault)
  | json (fault : Json.Fault)
  | noObject
  | config (fault : Token.Fault)
  | features (fault : Token.FeatureFault)
  | flatten (fault : Flatten.Fault)
  | compile (fault : Compile.Fault)

/-- The words in which a fault is reported, if it is. -/
def Fault.report? : Fault → Option Text
  | .opening _ .nullCharacter => none
  | .opening path fault => some (fault.message path)
  | .noTarget path => some ("Target is not file " ++ path)
  | .config fault => some fault.message
  | .flatten fault => some fault.message
  | .compile (.tool (.system message)) => some message
  | .compile fault => fault.message?
  | .targetWithoutValue | .directoryWithoutValue | .decoding _ | .json _ | .noObject
  | .features _ => none

/-! ## Computations -/

/-- What a command works on. -/
structure World where
  tree : FileTree
  tools : Compile.Toolchain

/-- A computation that tells what happens and may fail. -/
abbrev Run := EStateM Fault (List LogLine)

/-- Tells lines. -/
def tell (lines : List LogLine) : Run PUnit := modify (· ++ lines)

/-- The text of a file. -/
def readFile (tree : FileTree) (path : Text) : Run Text := do
  let bytes ← orFail (.opening path) (tree.read path)
  orFail .decoding (FileTree.decodeLines bytes)

/-- The configuration in a file. -/
def loadConfig (tree : FileTree) (path : Text) : Run Token.Config := do
  let text ← readFile tree path
  match (← orFail .json (Json.read text)).members? with
  | some members => orFail .config (Token.Config.ofMembers members)
  | none => throw .noObject

/-- The source for the configuration in a file. -/
def loadSource (tree : FileTree) (path : Text) : Run Token.Source := do
  let config ← loadConfig tree path
  orFail .features (Token.generate config.request)

/-- Where imported files are looked for.  Every directory to search has to have a value. -/
def resolverOf (arguments : Arguments) : Except Fault Import.Resolver := do
  let packages := match arguments.library with
    | none | some [] => Import.Resolver.defaultPackages
    | some directory => [(Import.libraryPrefix, directory)]
  let directories ← arguments.directories.mapM fun directory =>
    match directory with
    | some directory => .ok directory
    | none => .error .directoryWithoutValue
  return Import.Resolver.ofPaths packages directories

/-- The search for the file that an import path means. -/
def finderOf (tree : FileTree) (arguments : Arguments) : Run (Text → Import.Resolver.Finding) := do
  let resolver ← orFail id (resolverOf arguments)
  return resolver.look tree

/-- A source that needs no other file. -/
def flattenText (tree : FileTree) (arguments : Arguments) (source : Text) : Run Text := do
  let find ← finderOf tree arguments
  let outcome := runOn
    (Flatten.flattenSource (fun path => (find path).text?) Flatten.defaultLimit source) .empty
  tell (flattenLines find outcome.state)
  orFail .flatten outcome.answer

/-- The number of source units that a compilation of files follows at most. -/
def unitLimit : Nat := 1000000

/-- A compiled contract. -/
def compileText (world : World) (arguments : Arguments) (order : Compile.Order) :
    Run Compile.Compiled := do
  let find ← finderOf world.tree arguments
  let outcome := runOn
    (Compile.compile world.tools (fun path => (find path).text?) unitLimit order) .empty
  tell (compileLines find outcome.state)
  orFail .compile outcome.answer

/-! ## Results -/

/-- A text and the file that it goes to. -/
structure Product where
  text : Text
  /-- The path of the file; the standard output, if it is empty. -/
  output : Text
  /-- What is told after the text has been written. -/
  closing : List LogLine

/-- The file name for the flattened text of a file: the last part of its name is kept. -/
def flattenedName (path : Text) : Text :=
  let name := Path.fileName path
  let ending := (name.reverse.takeWhile (· != '.')).reverse
  name.take (name.length - ending.length - 1) ++ "_flattened." ++ ending

/-- A compiled contract with its source, as JSON. -/
def artifact (compiled : Compile.Compiled) (source : Token.Source) : Json :=
  .object [
    ("contractName", .text compiled.name),
    ("abi", compiled.interface),
    ("bytecode", .text compiled.bytecode),
    ("deployedBytecode", .text compiled.deployedBytecode),
    ("solcVersion", .text compiled.version),
    ("sourceCode", .text source.text),
    ("sourceHash", .text source.digest)]

/-- What a command produces. -/
def produce (world : World) (arguments : Arguments) : Command → Run Product
  | .generate config flatten output => do
    let source ← loadSource world.tree config
    let text ← if flatten then flattenText world.tree arguments source.text else pure source.text
    let line : Text := "Generated " ++ source.contractName ++ " (" ++ source.digest ++ ")"
    return ⟨text, output.getD [], [⟨.info, line⟩]⟩
  | .flatten none _ => throw .targetWithoutValue
  | .flatten (some path) output => do
    if !world.tree.isFile path then throw (.noTarget path)
    let source ← readFile world.tree path
    let text ← flattenText world.tree arguments source
    let output := match output with
      | none | some [] => flattenedName path
      | some output => output
    return ⟨text, output, []⟩
  | .compile config version install output => do
    let source ← loadSource world.tree config
    let compiled ← compileText world arguments
      ⟨source.text, some source.contractName, version, install, .null⟩
    return ⟨(artifact compiled source).indented, output.getD [], []⟩

/-! ## Writing -/

/-- What a run writes. -/
structure Written where
  /-- The text on the standard output. -/
  stdout : Text
  /-- The files after the run. -/
  tree : FileTree

/-- Writes a product. -/
def write (tree : FileTree) (product : Product) : Run Written := do
  let written : Written ← match product.output with
    | [] => pure ⟨product.text, tree⟩
    | output => do
      let tree ← orFail (.opening output) (tree.write output product.text)
      pure ⟨[], tree⟩
  tell product.closing
  return written

/-- Produces what a command asks for and writes it. -/
def produceAndWrite (world : World) (arguments : Arguments) (command : Command) : Run Written := do
  let product ← produce world arguments command
  write world.tree product

/-! ## Whole runs -/

/-- How a run ends. -/
inductive Ending where
  | wrongUse
  | help
  /-- There was no command; help is shown. -/
  | noCommand
  | done
  /-- The command failed, and the fault was reported. -/
  | failed (fault : Fault)
  /-- The command failed, and the fault was not reported. -/
  | escaped (fault : Fault)

/-- The code that a run ends with; none, if a fault escapes. -/
def Ending.code? : Ending → Option Nat
  | .wrongUse => some 2
  | .help => some 0
  | .noCommand => some 1
  | .done => some 0
  | .failed _ => some 1
  | .escaped _ => none

/-- What a run leaves behind. -/
structure Report where
  ending : Ending
  stdout : Text
  /-- The lines of the log that are shown. -/
  log : List LogLine
  tree : FileTree

/-- Runs a command. -/
def runCommand (world : World) (arguments : Arguments) (command : Command) : Report :=
  let outcome := runOn (produceAndWrite world arguments command) []
  let shown := shownLines arguments.verbose
  match outcome.answer with
  | .ok written => ⟨.done, written.stdout, shown outcome.state, written.tree⟩
  | .error fault =>
    match fault.report? with
    | some text => ⟨.failed fault, [], shown (outcome.state ++ [⟨.error, text⟩]), world.tree⟩
    | none => ⟨.escaped fault, [], shown outcome.state, world.tree⟩

/-- Runs a command line. -/
def run (world : World) (line : List Text) : Report :=
  match readArguments line with
  | .error .wrongUse => ⟨.wrongUse, [], [], world.tree⟩
  | .error .help => ⟨.help, [], [], world.tree⟩
  | .ok arguments =>
    match arguments.command with
    | none => ⟨.noCommand, [], [], world.tree⟩
    | some command => runCommand world arguments command

end CommandLine

end TokenForge

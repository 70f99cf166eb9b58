import TokenForge.Compile.Output
import TokenForge.Compile.Toolchain
import TokenForge.Outcome

/-!
# Compiling a contract

A compilation collects the sources, selects a version of the compiler, installs
it if it is missing and may be installed, compiles, and reads the contract from
the output.  The sources come first: when an import has no file, no version is
selected.  The compiler is called once, and a contract is returned only if no
diagnostic has the severity of an error.

A compilation is an `EStateM` on its `Record`, so that what was looked up,
installed and compiled is known also after a fault.
-/

namespace TokenForge

namespace Compile

/-- What is reported during a compilation. -/
inductive Note where
  | installing (version : Text)
  | compiling (units : Nat) (version : Text)
  | warning (message : Json)
  | notPutOut (contract : Text) (names : List Text)

/-- A call of the compiler. -/
structure Call where
  input : Json
  version : Text

/-- What a compilation has done. -/
structure Record where
  /-- The paths that were looked up, oldest first. -/
  asked : List Text
  /-- The versions that were installed, or should have been, oldest first. -/
  installs : List Text
  /-- The calls of the compiler, oldest first. -/
  calls : List Call
  /-- What was reported, oldest first. -/
  notes : List Note

/-- The record before any step. -/
def Record.empty : Record := ⟨[], [], [], []⟩

/-- Why a compilation has no result. -/
inductive Fault where
  | sources (fault : SearchFault)
  | versions (fault : Version.FilterFault)
  /-- No version is accepted by the source. -/
  | noVersion
  /-- A version is not installed and must not be. -/
  | notInstalled (version : Text)
  /-- The installation of a version failed. -/
  | installFailed (version message : Text)
  | failed (messages : List Text)
  /-- The compiler of the version is not there. -/
  | noCompiler (message : Text)
  | noContract
  | output (fault : OutputFault)
  /-- A tool failed in another way. -/
  | tool (fault : ToolFault)

/-- The version that is named as an example. -/
def exampleVersion : Text := "0.8.20"

/-- The words of a fault that is due to the source, the versions or the output; none for a fault
of another kind. -/
def Fault.message? : Fault → Option Text
  | .sources (.missing path) => some ("File not found: " ++ path)
  | .noVersion =>
    some ("No solc version available for pragma in source, install one (for example " ++
      exampleVersion ++ ") or pass `version`")
  | .notInstalled version =>
    some ("solc " ++ version ++ " is not installed, install it or set `try_install_solc`")
  | .installFailed version message =>
    some ("Cannot install solc " ++ version ++ ": " ++ message)
  | .failed messages => some ("Compilation failed: " ++ List.intercalate ['\n'] messages)
  | .noCompiler message => some message
  | .noContract => some "No contract found in compilation output"
  | .sources .endless | .versions _ | .output _ | .tool _ => none

/-- The single messages behind a fault. -/
def Fault.diagnostics : Fault → List Text
  | .sources (.missing path) => ["File not found: " ++ path]
  | .failed messages => messages
  | _ => []

/-- A computation on a record, whose changes to it outlast a fault. -/
abbrev Run := EStateM Fault Record

/-- Reports something. -/
def note (n : Note) : Run PUnit := modify fun record => { record with notes := record.notes ++ [n] }

/-! ## Versions -/

/-- The version that is asked for, or else the newest that a source accepts. -/
def wantedVersion (tools : Toolchain) (source : Text) (version : Option Text) (tryInstall : Bool) :
    Run Text := do
  match version with
  | some (c :: cs) => return c :: cs
  | _ =>
    let detection := Version.detect none source tools.installed tools.installable tryInstall
    match ← orFail .versions detection.answer with
    | none | some [] => throw .noVersion
    | some version => return version

/-- Installs a version. -/
def installVersion (tools : Toolchain) (version : Text) : Run PUnit := do
  note (.installing version)
  modify fun record => { record with installs := record.installs ++ [version] }
  match tools.install version with
  | none => return
  | some fault =>
    match fault.installMessage? with
    | some message => throw (.installFailed version message)
    | none => throw (.tool fault)

/-- The version to compile with, which is installed when it is returned. -/
def selectVersion (tools : Toolchain) (source : Text) (version : Option Text)
    (tryInstall : Bool) : Run Text := do
  let version ← wantedVersion tools source version tryInstall
  let installed ← orFail .versions (Version.listed tools.installed)
  if version ∈ installed then return version
  if !tryInstall then throw (.notInstalled version)
  installVersion tools version
  return version

/-! ## Results -/

/-- A compiled contract. -/
structure Compiled where
  name : Text
  interface : Json
  /-- The code that creates the contract. -/
  bytecode : Text
  /-- The code of the contract itself. -/
  deployedBytecode : Text
  version : Text
  warnings : List Json

/-- Fails if there are error messages. -/
def refuseErrors (errors : List Json) : Run PUnit := do
  match errors with
  | [] => return
  | errors => throw (.failed (← orFail .output (messageTexts errors)))

/-- Compiles an input. -/
def callCompiler (tools : Toolchain) (input : Json) (version : Text) : Run Json := do
  modify fun record => { record with calls := record.calls ++ [⟨input, version⟩] }
  match tools.compile input version with
  | .ok output => return output
  | .error (.rejected rejection) =>
    let items ← orFail .output (itemsOf rejection.diagnostics)
    match ← orFail .output (messages "error" items) with
    | [] => throw (.failed [rejection.report])
    | errors => throw (.failed (← orFail .output (messageTexts errors)))
  | .error (.notInstalled message) => throw (.noCompiler message)
  | .error fault => throw (.tool fault)

/-- Reads the contract that is asked for from an output. -/
def readOutput (output : Json) (contract : Option Text) (version : Text) : Run Compiled := do
  let items ← orFail .output (itemsOf ((output.get? "errors").getD .null))
  refuseErrors (← orFail .output (messages "error" items))
  let warnings ← orFail .output (messages "warning" items)
  warnings.forM fun w => note (.warning w)
  let contracts ← orFail .output (contractsOf output entryUnit)
  let names := Assoc.keys contracts
  match contract with
  | some (c :: cs) => if (c :: cs) ∉ names then note (.notPutOut (c :: cs) names)
  | _ => pure ⟨⟩
  match pickContract names contract with
  | none | some [] => throw .noContract
  | some name =>
    let target := (Assoc.get? contracts name).getD .null
    let interface ← orFail .output (interfaceOf target)
    let bytecode ← orFail .output (codeOf target "bytecode")
    let deployedBytecode ← orFail .output (codeOf target "deployedBytecode")
    return ⟨name, interface, bytecode, deployedBytecode, version, warnings⟩

/-! ## The whole compilation -/

/-- What a compilation is asked for. -/
structure Order where
  /-- The source of the entry unit. -/
  source : Text
  /-- The contract to return. -/
  contract : Option Text
  /-- The version to compile with. -/
  version : Option Text
  /-- Whether a missing version may be installed. -/
  tryInstall : Bool
  settings : Json

/-- Collects the sources of an order. -/
def gather (lookup : Text → Option Text) (limit : Nat) (source : Text) : Run (Assoc Text) := do
  let found := collectSources lookup limit entryUnit source
  modify fun record => { record with asked := found.asked }
  orFail .sources found.answer

/-- Compiles a contract. -/
def compile (tools : Toolchain) (lookup : Text → Option Text) (limit : Nat) (order : Order) :
    Run Compiled := do
  let sources ← gather lookup limit order.source
  let version ← selectVersion tools order.source order.version order.tryInstall
  note (.compiling sources.length version)
  let output ← callCompiler tools (inputOf sources order.settings) version
  readOutput output order.contract version

end Compile

end TokenForge

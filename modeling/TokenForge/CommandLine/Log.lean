import TokenForge.Compile.Basic
import TokenForge.Flatten.Basic
import TokenForge.Import.Resolver

/-!
# Log lines

What happens during a flattening or a compilation is told in log lines, each
with a level.  Looking up an imported file is told before what becomes of it.
Lines for finding faults are shown only when everything is asked for.
-/

namespace TokenForge

namespace CommandLine

/-- How much a line matters. -/
inductive Severity where
  | debug
  | info
  | warning
  | error
  deriving DecidableEq, Repr

/-- The name of a severity. -/
def Severity.name : Severity → Text
  | .debug => "DEBUG"
  | .info => "INFO"
  | .warning => "WARNING"
  | .error => "ERROR"

/-- A line of the log. -/
structure LogLine where
  severity : Severity
  text : Text
  deriving DecidableEq, Repr

/-- A line as it is shown. -/
def LogLine.render (line : LogLine) : Text := line.severity.name ++ " " ++ line.text ++ "\n"

/-- The lines that are shown. -/
def shownLines (verbose : Bool) (lines : List LogLine) : List LogLine :=
  lines.filter fun line => verbose || line.severity != .debug

/-! ## What is told -/

/-- The lines of a look-up. -/
def lookupLines (find : Text → Import.Resolver.Finding) (path : Text) : List LogLine :=
  match find path with
  | .text _ => []
  | .unreadable file fault =>
    [⟨.warning, "Cannot read import file " ++ file ++ ": " ++ fault.message⟩]
  | .nothing => [⟨.debug, "Import not found on disk: " ++ path⟩]

/-- The lines of an event of a flattening. -/
def eventLines (find : Text → Import.Resolver.Finding) : Flatten.Event → List LogLine
  | .asked path => lookupLines find path
  | .duplicate path => [⟨.debug, "Skipping duplicate import " ++ path⟩]
  | .notFound path => [⟨.warning, "Import not found: " ++ path⟩]
  | .repeated feature => [⟨.debug, "Dropping duplicate pragma " ++ feature.name⟩]

/-- The lines of a flattening. -/
def flattenLines (find : Text → Import.Resolver.Finding) (session : Flatten.Session) :
    List LogLine :=
  session.events.flatMap (eventLines find)

/-- The line of a note of a compilation. -/
def noteLine : Compile.Note → LogLine
  | .installing version => ⟨.info, "Installing solc " ++ version⟩
  | .compiling units version =>
    ⟨.info, "Compiling " ++ Text.ofNat units ++ " source units with solc " ++ version⟩
  | .warning message => ⟨.warning, message.display⟩
  | .notPutOut contract names =>
    ⟨.warning, "Contract " ++ contract ++ " not in compilation output, found " ++
      (Json.array (names.map .text)).display⟩

/-- The lines of a compilation. -/
def compileLines (find : Text → Import.Resolver.Finding) (record : Compile.Record) :
    List LogLine :=
  record.asked.flatMap (lookupLines find) ++ record.notes.map noteLine

end CommandLine

end TokenForge

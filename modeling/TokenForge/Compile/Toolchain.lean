import TokenForge.Compile.Input
import TokenForge.Text.Blank
import TokenForge.Version.Select

/-!
# Toolchains

A toolchain knows which versions of the compiler are installed and which can be
installed, installs a version and compiles an input with one.  It is a value of
answers: how an installation fails, if it does, and what the compiler puts out.
-/

namespace TokenForge

namespace Compile

/-- What a compiler says when it ends with an error of its own. -/
structure Rejection where
  message : Option Text
  command : List Json
  returnCode : Json
  stdout : Json
  stderr : Json
  diagnostics : Json

/-- The message of a rejection that has none of its own. -/
def Rejection.defaultMessage : Text := "An error occurred during execution"

/-- A rejection in words. -/
def Rejection.report (r : Rejection) : Text :=
  let command := List.intercalate [' '] (r.command.map Json.display)
  Text.strip (r.message.getD Rejection.defaultMessage ++
    "\n> command: `" ++ command ++
    "`\n> return code: `" ++ r.returnCode.display ++
    "`\n> stdout:\n" ++ r.stdout.display ++
    "\n> stderr:\n" ++ r.stderr.display)

/-- How a tool fails. -/
inductive ToolFault where
  | installation (message : Text)
  | unsupported (message : Text)
  | download (message : Text)
  /-- The system refused something. -/
  | system (message : Text)
  | notInstalled (message : Text)
  /-- The tool has a fault of its own. -/
  | broken (message : Text)
  /-- The compiler ended with an error. -/
  | rejected (rejection : Rejection)

/-- The message of a failed installation, if the failure is one of the installation itself. -/
def ToolFault.installMessage? : ToolFault → Option Text
  | .installation message | .unsupported message | .download message | .system message =>
    some message
  | _ => none

/-- Installed and installable compilers. -/
structure Toolchain where
  /-- The listing of the installed versions. -/
  installed : List Text
  /-- The listing of the versions that can be installed. -/
  installable : List Text
  /-- How the installation of a version fails, if it does. -/
  install : Text → Option ToolFault
  /-- What the compiler of a version puts out for an input. -/
  compile : Json → Text → Except ToolFault Json

/-- The toolchain without any compiler. -/
def Toolchain.none : Toolchain where
  installed := []
  installable := []
  install _ := some (.installation "no compilers can be installed")
  compile _ _ := .error (.notInstalled "no compiler is installed")

end Compile

end TokenForge

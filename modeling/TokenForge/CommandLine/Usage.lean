import TokenForge.CommandLine.Arguments

/-!
# Usage

What is shown when help is asked for or the arguments are wrong.
-/

namespace TokenForge

namespace CommandLine

/-- The lines that say how the program is called. -/
def usageLines : List Text := [
  "usage: tokenforge [-h] [-v] [--openzeppelin DIRECTORY] [--include DIRECTORY] COMMAND ...",
  "",
  "Generate, flatten and compile ERC-20 token contracts.",
  "",
  "commands:",
  "  generate CONFIG [--flatten] [--output FILE]",
  "  flatten --path FILE [--output FILE]",
  "  compile CONFIG [--solc-version VERSION] [--install-solc] [--output FILE]"]

/-- How the program is called. -/
def usage : Text := usageLines.flatMap (· ++ ['\n'])

end CommandLine

end TokenForge

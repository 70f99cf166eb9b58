import TokenForge.CommandLine.Arguments
import TokenForge.Proofs.Outcome

/-!
# Options before a command

Options before the command are read without regard to the command that follows.  So if a command
line of such options is accepted, they mean the same in front of every command
(`readArguments_append`).
-/

namespace TokenForge

namespace CommandLine

variable {ι : Type} {level : Level ι} {switches : List (Switch ι)} {reading r : Reading ι}
  {kinds more : List (Text × Kind ι)} {line rest : List Text}

/-! ## Kinds -/

section Option

variable {switch : Switch ι} {name : Text} {attached : Option Text} {skip : Bool}
  {next : Option (Text × Kind ι)}

/-- The value of the last option of an argument, and whether it is the next argument. -/
def Bundle.value (bundle : Bundle ι) (next : Option (Text × Kind ι)) :
    Except Stop (Option Text × Bool) :=
  if !bundle.last.hasValue then .ok (none, false)
  else
    match bundle.attached with
    | some text => .ok (attachedValue text, false)
    | none =>
      match next with
      | some (text, .word) => .ok (some text, true)
      | _ => .error .wrongUse

end Option

/-! ## Arguments before a command -/

/-- The arguments that settings and a command make up. -/
def Reading.made (reading : Reading Setting) (command : Option Command) : Arguments where
  verbose := reading.isSet .verbose
  library := reading.value? .library
  directories := reading.values .directory
  command

section Words

variable {config target output : Text} (configWord : config.head? ≠ some '-')
  (targetWord : target.head? ≠ some '-') (outputWord : output.head? ≠ some '-')

section

include configWord outputWord

end

variable {shared : Arguments} (accepted : readArguments line = .ok shared)
  (no_command : shared.command = none) (unmarked : ['-', '-'] ∉ line)

include accepted no_command unmarked outputWord

end Words

end CommandLine

end TokenForge

import TokenForge.Text.DecimalDigit

/-!
# Options of a command line

A command line is a list of arguments.  An argument that begins with `-` may be
an option: by its name, by a beginning of a long name that no other option has,
or as a short name with more short names behind it.  A value follows its option
as the next argument, or in the same argument after `=`; the value `--` in the
same argument stands for none.  The argument `--` ends the options.

`Level` says which options there are and whether one word, or a command with all
that follows it, is expected beside them.  `Level.read` reads a list of arguments
from left to right; a wrong use and a call for help end the reading where they
are met.  The options of one argument are all recognised before the first of
them takes effect.
-/

namespace TokenForge

namespace CommandLine

/-! ## Options -/

/-- An option that sets something named by an `ι`. -/
structure Switch (ι : Type) where
  /-- What it sets; none for the call for help. -/
  sets : Option ι
  names : List Text
  hasValue : Bool

/-- What an argument is taken for. -/
inductive Kind (ι : Type) where
  | word
  /-- The end of the options. -/
  | mark
  /-- An option, with the name it goes by and the text attached to it. -/
  | option (switch : Switch ι) (name : Text) (attached : Option Text)
  | unknown

/-- How reading ends early. -/
inductive Stop where
  | wrongUse
  | help
  deriving DecidableEq, Repr

variable {ι : Type}

/-- The option of a name. -/
def switchOf? (switches : List (Switch ι)) (name : Text) : Option (Switch ι) :=
  switches.find? fun s => s.names.contains name

/-- The parts of an argument before and after its first `=`, if it has one. -/
def splitSign? (argument : Text) : Option (Text × Text) :=
  match argument.dropWhile (· != '=') with
  | [] => none
  | _ :: value => some (argument.takeWhile (· != '='), value)

/-- Whether an argument is a negative number. -/
def isNegativeNumber (argument : Text) : Bool :=
  match argument with
  | '-' :: s =>
    let whole := s.takeWhile isDecimalDigit
    let ends := fun s : Text => s == [] || s == ['\n']
    match s.dropWhile isDecimalDigit with
    | '.' :: fraction =>
      !(fraction.takeWhile isDecimalDigit).isEmpty && ends (fraction.dropWhile isDecimalDigit)
    | rest => !whole.isEmpty && ends rest
  | _ => false

/-- The options that a long argument may abbreviate. -/
def longMatches (switches : List (Switch ι)) (argument : Text) : List (Kind ι) :=
  let (start, attached) : Text × Option Text := match splitSign? argument with
    | some (start, value) => (start, some value)
    | none => (argument, none)
  switches.flatMap fun s =>
    (s.names.filter (Text.startsWith start)).map fun name => .option s name attached

/-- The options that a short argument with more behind it may mean. -/
def shortMatches (switches : List (Switch ι)) (argument : Text) : List (Kind ι) :=
  switches.flatMap fun s =>
    s.names.filterMap fun name =>
      if name = argument.take 2 then some (.option s name (some (argument.drop 2)))
      else if Text.startsWith argument name then some (.option s name none)
      else none

/-- What an argument that begins with `-` and is no exact name is taken for. -/
def kindOfLoose (switches : List (Switch ι)) (argument : Text) : Except Stop (Kind ι) :=
  let found := if Text.startsWith "--" argument then longMatches switches argument
    else shortMatches switches argument
  match found with
  | [kind] => .ok kind
  | _ :: _ :: _ => .error .wrongUse
  | [] => .ok (if isNegativeNumber argument || argument.contains ' ' then .word else .unknown)

/-- What an argument is taken for. -/
def kindOf (switches : List (Switch ι)) (argument : Text) : Except Stop (Kind ι) :=
  if argument.head? ≠ some '-' then .ok .word
  else
    match switchOf? switches argument, splitSign? argument with
    | some s, _ => .ok (.option s argument none)
    | none, some (name, value) =>
      match switchOf? switches name with
      | some s => .ok (.option s name (some value))
      | none => kindOfLoose switches argument
    | none, none => if argument.length = 1 then .ok .word else kindOfLoose switches argument

/-- What each argument is taken for.  After the mark all are words. -/
def kindsOf (switches : List (Switch ι)) : List Text → Except Stop (List (Text × Kind ι))
  | [] => .ok []
  | argument :: arguments =>
    if argument = ['-', '-'] then
      .ok ((argument, .mark) :: arguments.map fun a => (a, .word))
    else do
      let kind ← kindOf switches argument
      let rest ← kindsOf switches arguments
      return (argument, kind) :: rest

/-! ## Reading -/

/-- What stands beside the options. -/
inductive Expects where
  | nothing
  | word
  /-- A command and all that follows it. -/
  | command
  deriving DecidableEq, Repr

/-- The options at one level of a command line. -/
structure Level (ι : Type) where
  switches : List (Switch ι)
  expects : Expects

/-- What has been read. -/
structure Reading (ι : Type) where
  /-- The settings, oldest first, with their values; none for an option without a value and for
  a value that stands for none. -/
  settings : List (ι × Option Text)
  /-- The words that were expected, if they were there. -/
  words : Option (List Text)
  /-- Whether there were arguments too many. -/
  excess : Bool

/-- Notes an option with its value, or stops for help. -/
def Reading.set (reading : Reading ι) (switch : Switch ι) (value : Option Text) :
    Except Stop (Reading ι) :=
  match switch.sets with
  | none => .error .help
  | some what => .ok { reading with settings := reading.settings ++ [(what, value)] }

/-- Notes options without a value in order. -/
def Reading.setAll (reading : Reading ι) : List (Switch ι) → Except Stop (Reading ι)
  | [] => .ok reading
  | switch :: switches => do (← reading.set switch none).setAll switches

/-- The options in one argument. -/
structure Bundle (ι : Type) where
  /-- The options before the last one, all without a value. -/
  before : List (Switch ι)
  last : Switch ι
  attached : Option Text

/-- Reads the text after a short option without a value as the letters of further short options.
One with a value takes the rest of the text for it. -/
def readLetters (switches : List (Switch ι)) : Text → Except Stop (Bundle ι)
  | [] => .error .wrongUse
  | letter :: rest =>
    match switchOf? switches ['-', letter] with
    | none => .error .wrongUse
    | some switch =>
      if rest = [] then .ok ⟨[], switch, none⟩
      else if switch.hasValue then .ok ⟨[], switch, some rest⟩
      else (readLetters switches rest).map fun b => { b with before := switch :: b.before }

/-- The options in an argument that begins with an option by a name. -/
def bundle (switches : List (Switch ι)) (switch : Switch ι) (name : Text) :
    Option Text → Except Stop (Bundle ι)
  | none => .ok ⟨[], switch, none⟩
  | some text =>
    if switch.hasValue then .ok ⟨[], switch, some text⟩
    else if Text.startsWith "--" name then .error .wrongUse
    else (readLetters switches text).map fun b => { b with before := switch :: b.before }

/-- The value that an attached text gives: the mark stands for none. -/
def attachedValue (text : Text) : Option Text := if text = ['-', '-'] then none else some text

/-- Reads the options of an argument and the value of the last one.  The answer tells whether the
next argument was that value. -/
def Reading.option (reading : Reading ι) (switches : List (Switch ι)) (switch : Switch ι)
    (name : Text) (attached : Option Text) (next : Option (Text × Kind ι)) :
    Except Stop (Reading ι × Bool) := do
  let bundle ← bundle switches switch name attached
  let (value, skip) ←
    if !bundle.last.hasValue then pure (none, false)
    else
      match bundle.attached, next with
      | some text, _ => pure (attachedValue text, false)
      | none, some (text, .word) => pure (some text, true)
      | none, _ => throw .wrongUse
  return (← (← reading.setAll bundle.before).set bundle.last value, skip)

/-- Reads the arguments after the last option: the words that are expected and not yet read.
What is left is too much. -/
def Reading.finish (reading : Reading ι) (expects : Expects) (arguments : List Text) : Reading ι :=
  match expects, reading.words, arguments with
  | .word, none, ['-', '-'] :: word :: rest =>
    { reading with words := some [word], excess := reading.excess || !rest.isEmpty }
  | .word, none, word :: rest =>
    if word = ['-', '-'] then { reading with excess := true }
    else
      let rest := match rest with
        | ['-', '-'] :: rest => rest
        | rest => rest
      { reading with words := some [word], excess := reading.excess || !rest.isEmpty }
  | .command, none, ['-', '-'] :: [] => { reading with excess := true }
  | .command, none, command :: rest => { reading with words := some (command :: rest) }
  | _, _, rest => { reading with excess := reading.excess || !rest.isEmpty }

/-- Whether an argument is taken for an option. -/
def isOption : Kind ι → Bool
  | .option _ _ _ | .unknown => true
  | _ => false

/-- Reads arguments from left to right.  `skip` tells that the next one has been read. -/
def Reading.arguments (reading : Reading ι) (level : Level ι) :
    Bool → List (Text × Kind ι) → Except Stop (Reading ι)
  | _, [] => .ok reading
  | true, _ :: rest => reading.arguments level false rest
  | false, (argument, kind) :: rest =>
    match kind with
    | .option switch name attached => do
      let (reading, skip) ← reading.option level.switches switch name attached rest.head?
      reading.arguments level skip rest
    | .unknown => { reading with excess := true }.arguments level false rest
    | .word | .mark =>
      if rest.any fun a => isOption a.2 then
        match level.expects, reading.words with
        | .command, none => .ok { reading with words := some (argument :: rest.map Prod.fst) }
        | .word, none => { reading with words := some [argument] }.arguments level false rest
        | _, _ => { reading with excess := true }.arguments level false rest
      else .ok (reading.finish level.expects (argument :: rest.map Prod.fst))

/-- Reads a list of arguments. -/
def Level.read (level : Level ι) (arguments : List Text) : Except Stop (Reading ι) := do
  let kinds ← kindsOf level.switches arguments
  Reading.arguments ⟨[], none, false⟩ level false kinds

end CommandLine

end TokenForge

import TokenForge.Proofs.CommandLine.Changes

/-!
# Faults that are not reported

A fault of a command is reported, or it escapes.  `Unproduced` lists the faults that the commands
that generate and that flatten meet before they write, and `Escapes` says which of their faults
are not reported: a configuration file, or a file to flatten, that is not UTF-8; a configuration
that is no JSON or no object; a path with a null character; and an option whose value stands for
none where one is needed.

Nothing else escapes (`run_escapes_iff`).  In particular no file that is imported makes a run
escape, whatever bytes it holds.
-/

namespace TokenForge

namespace CommandLine

variable {tree : FileTree} {world : World} {arguments : Arguments} {command : Command}
  {log : List LogLine} {path : Text} {fault : Fault}

/-! ## The faults of a command -/

/-- Whether a command compiles. -/
def Command.compiles : Command → Bool
  | .compile .. => true
  | .generate .. | .flatten .. => false

/-- Why no text is generated or flattened. -/
inductive Unproduced (world : World) (arguments : Arguments) : Command → Fault → Prop where
  | config {config flatten output fault} : Misconfigures world.tree config fault →
    Unproduced world arguments (.generate config flatten output) fault
  | flatSource {config output c fault} : Configures world.tree config c →
    Unflattened world.tree arguments c.features.source.text fault →
    Unproduced world arguments (.generate config true output) fault
  | noPath {output} : Unproduced world arguments (.flatten none output) .targetWithoutValue
  | noTarget {target output} : world.tree.isFile target = false →
    Unproduced world arguments (.flatten (some target) output) (.noTarget target)
  | noText {target output bytes reason} : world.tree.read target = .ok bytes →
    FileTree.decodeLines bytes = .error reason →
    Unproduced world arguments (.flatten (some target) output) (.decoding reason)
  | flatFile {target output source fault} : Holds world.tree target source →
    Unflattened world.tree arguments source fault →
    Unproduced world arguments (.flatten (some target) output) fault

theorem pure_ne_error {ε σ α : Type} {a : α} {e : ε} {before after : σ} :
    runOn (pure a : EStateM ε σ α) before ≠ ⟨.error e, after⟩ := nofun

/-- A command that generates or flattens produces no text for the reasons that are listed and no
others. -/
theorem produce_error_iff (plain : command.compiles = false) :
    (∃ log', runOn (produce world arguments command) log = ⟨.error fault, log'⟩) ↔
      Unproduced world arguments command fault := by
  constructor
  · rintro ⟨log', h⟩
    cases command with
    | generate config flatten output =>
      cases flatten with
      | false =>
        simp only [produce_source, runOn_bind_error, loadSource_error, pure_ne_error, and_false,
          exists_false, or_false] at h
        exact .config h.1
      | true =>
        simp only [produce_flatSource, runOn_bind_error, loadSource_error, loadSource_ok,
          pure_ne_error, and_false, exists_false, or_false] at h
        rcases h with ⟨h, _⟩ | ⟨_, _, ⟨⟨c, configures, rfl⟩, _⟩, h⟩
        · exact .config h
        · exact .flatSource configures (flattenText_error.mp ⟨_, h⟩)
    | flatten target output =>
      cases target with
      | none =>
        cases h
        exact .noPath
      | some target =>
        rw [produce_flatFile] at h
        split at h
        next file =>
          simp only [runOn_bind_error, readFile_error, readFile_ok, pure_ne_error, and_false,
            exists_false, or_false] at h
          obtain ⟨bytes, opened⟩ := isFile_iff.mp file
          rcases h with ⟨⟨reason, closed, _⟩ | ⟨_, _, read, noText, rfl⟩, _⟩ |
            ⟨source, _, ⟨holds, _⟩, h⟩
          · cases opened.symm.trans closed
          · exact .noText read noText
          · exact .flatFile holds (flattenText_error.mp ⟨_, h⟩)
        next no_file =>
          cases h
          exact .noTarget (Bool.eq_false_iff.mpr no_file)
    | compile => cases plain
  · intro h
    cases h with
    | @config config flatten output fault misconfigures =>
      have failed : runOn (loadSource world.tree config) log = ⟨.error fault, log⟩ :=
        loadSource_error.mpr ⟨misconfigures, rfl⟩
      exact ⟨_, runOn_bind_error.mpr (.inl failed)⟩
    | @flatSource config output c fault configures unflattened =>
      have loaded : runOn (loadSource world.tree config) log = ⟨.ok c.features.source, log⟩ :=
        loadSource_ok.mpr ⟨⟨c, configures, rfl⟩, rfl⟩
      obtain ⟨log', failed⟩ : ∃ log', runOn (flattenText world.tree arguments _) log =
          ⟨.error fault, log'⟩ := flattenText_error.mpr unflattened
      exact ⟨log', runOn_bind_error.mpr (.inr ⟨_, _, loaded, runOn_bind_error.mpr (.inl failed)⟩)⟩
    | noPath => exact ⟨log, rfl⟩
    | noTarget no_file =>
      rw [produce_flatFile, no_file]
      exact ⟨log, rfl⟩
    | @noText target output bytes reason read noText =>
      rw [produce_flatFile, if_pos (isFile_iff.mpr ⟨bytes, read⟩)]
      exact ⟨log, runOn_bind_error.mpr (.inl
        (readFile_error.mpr ⟨.inr ⟨bytes, reason, read, noText, rfl⟩, rfl⟩))⟩
    | @flatFile target output source fault holds unflattened =>
      have read : runOn (readFile world.tree target) log = ⟨.ok source, log⟩ :=
        readFile_ok.mpr ⟨holds, rfl⟩
      obtain ⟨log', failed⟩ : ∃ log', runOn (flattenText world.tree arguments source) log =
          ⟨.error fault, log'⟩ := flattenText_error.mpr unflattened
      rw [produce_flatFile, if_pos (isFile_of_holds holds)]
      exact ⟨log', runOn_bind_error.mpr (.inr ⟨_, _, read, runOn_bind_error.mpr (.inl failed)⟩)⟩

theorem produceAndWrite_error_iff (plain : command.compiles = false) :
    (∃ log', runOn (produceAndWrite world arguments command) log = ⟨.error fault, log'⟩) ↔
      Unproduced world arguments command fault ∨
        ∃ text output reason, Produces world arguments command text output ∧ output ≠ [] ∧
          world.tree.placeToWrite output = .error reason ∧ fault = .opening output reason := by
  simp only [produceAndWrite, runOn_bind_error, exists_or, produce_error_iff plain, write_error]
  refine or_congr_right ⟨?_, ?_⟩
  · rintro ⟨_, ⟨text, output, closing⟩, _, produced, reason, some_path, refused, rfl, _⟩
    exact ⟨text, output, reason, produce_ok_iff.mp ⟨_, _, produced⟩, some_path, refused, rfl⟩
  · rintro ⟨text, output, reason, produces, some_path, refused, rfl⟩
    obtain ⟨closing, log', produced⟩ : ∃ closing log', runOn (produce world arguments command) log =
      ⟨.ok ⟨text, output, closing⟩, log'⟩ := produce_ok_iff.mpr produces
    exact ⟨log', _, log', produced, reason, some_path, refused, rfl, rfl⟩

/-! ## Escaping faults -/

/-- The faults of generating and flattening that are not reported. -/
inductive Escapes (world : World) (arguments : Arguments) : Command → Fault → Prop where
  | nullInConfig {config flatten output} : '\x00' ∈ config →
    Escapes world arguments (.generate config flatten output) (.opening config .nullCharacter)
  | configNoText {config flatten output bytes reason} : world.tree.read config = .ok bytes →
    FileTree.decodeLines bytes = .error reason →
    Escapes world arguments (.generate config flatten output) (.decoding reason)
  | configNoJson {config flatten output text reason} : Holds world.tree config text →
    Json.read text = .error reason →
    Escapes world arguments (.generate config flatten output) (.json reason)
  | configNoObject {config flatten output text value} : Holds world.tree config text →
    Json.read text = .ok value → value.members? = none →
    Escapes world arguments (.generate config flatten output) .noObject
  | sourceNoDirectory {config output c} : Configures world.tree config c →
    none ∈ arguments.directories →
    Escapes world arguments (.generate config true output) .directoryWithoutValue
  | noPath {output} : Escapes world arguments (.flatten none output) .targetWithoutValue
  | fileNoText {target output bytes reason} : world.tree.read target = .ok bytes →
    FileTree.decodeLines bytes = .error reason →
    Escapes world arguments (.flatten (some target) output) (.decoding reason)
  | fileNoDirectory {target output source} : Holds world.tree target source →
    none ∈ arguments.directories →
    Escapes world arguments (.flatten (some target) output) .directoryWithoutValue
  | nullInOutput {command text output} : Produces world arguments command text output →
    '\x00' ∈ output → Escapes world arguments command (.opening output .nullCharacter)

theorem report?_opening {reason : OpenFault} :
    (Fault.opening path reason).report? = none ↔ reason = .nullCharacter := by
  cases reason <;> simp [Fault.report?]

/-- The faults that escape are those that are met and have no report. -/
theorem escapes_iff (plain : command.compiles = false) :
    Escapes world arguments command fault ↔
      (∃ log', runOn (produceAndWrite world arguments command) log = ⟨.error fault, log'⟩) ∧
        fault.report? = none := by
  rw [produceAndWrite_error_iff plain]
  constructor
  · intro h
    cases h with
    | nullInConfig null =>
      exact ⟨.inl (.config (.closed (FileTree.read_eq_nullCharacter_iff.mpr null))), rfl⟩
    | configNoText read noText => exact ⟨.inl (.config (.noText read noText)), rfl⟩
    | configNoJson holds noJson => exact ⟨.inl (.config (.noJson holds noJson)), rfl⟩
    | configNoObject holds read noObject =>
      exact ⟨.inl (.config (.noObject holds read noObject)), rfl⟩
    | sourceNoDirectory configures member =>
      have unknown := resolverOf_error.mpr ⟨rfl, member⟩
      exact ⟨.inl (.flatSource configures (.noDirectory unknown)), rfl⟩
    | noPath => exact ⟨.inl .noPath, rfl⟩
    | fileNoText read noText => exact ⟨.inl (.noText read noText), rfl⟩
    | fileNoDirectory holds member =>
      have unknown := resolverOf_error.mpr ⟨rfl, member⟩
      exact ⟨.inl (.flatFile holds (.noDirectory unknown)), rfl⟩
    | @nullInOutput command text output produces null =>
      refine ⟨.inr ⟨text, output, .nullCharacter, produces, List.ne_nil_of_mem null, ?_, rfl⟩, rfl⟩
      exact FileTree.placeToWrite_eq_nullCharacter_iff.mpr null
  · rintro ⟨unproduced | ⟨text, output, reason, produces, _, refused, rfl⟩, silent⟩
    · cases unproduced with
      | config misconfigures =>
        cases misconfigures with
        | closed closed =>
          cases report?_opening.mp silent
          exact .nullInConfig (FileTree.read_eq_nullCharacter_iff.mp closed)
        | noText read noText => exact .configNoText read noText
        | noJson holds noJson => exact .configNoJson holds noJson
        | noObject holds read noObject => exact .configNoObject holds read noObject
        | refused => cases silent
      | flatSource configures unflattened =>
        cases unflattened with
        | noDirectory unknown =>
          obtain ⟨rfl, member⟩ := resolverOf_error.mp unknown
          exact .sourceNoDirectory configures member
        | refused => cases silent
      | noPath => exact .noPath
      | noTarget => cases silent
      | noText read noText => exact .fileNoText read noText
      | flatFile holds unflattened =>
        cases unflattened with
        | noDirectory unknown =>
          obtain ⟨rfl, member⟩ := resolverOf_error.mp unknown
          exact .fileNoDirectory holds member
        | refused => cases silent
    · cases report?_opening.mp silent
      exact .nullInOutput produces (FileTree.placeToWrite_eq_nullCharacter_iff.mp refused)

theorem runCommand_escaped_iff :
    (runCommand world arguments command).ending = .escaped fault ↔
      (∃ log', runOn (produceAndWrite world arguments command) [] = ⟨.error fault, log'⟩) ∧
        fault.report? = none := by
  rw [runCommand]
  rcases runOn (produceAndWrite world arguments command) [] with ⟨met | written, log⟩
  · dsimp only
    cases report : met.report? with
    | some words =>
      constructor
      · intro h
        cases h
      · rintro ⟨⟨_, ⟨⟩⟩, silent⟩
        cases report.symm.trans silent
    | none =>
      constructor
      · intro h
        cases h
        exact ⟨⟨log, rfl⟩, report⟩
      · rintro ⟨⟨_, ⟨⟩⟩, _⟩
        rfl
  · constructor
    · intro h
      cases h
    · rintro ⟨⟨_, ⟨⟩⟩, _⟩

/-- A command ends well, or with a fault that is reported or escapes. -/
theorem runCommand_ending (world : World) (arguments : Arguments) (command : Command) :
    (runCommand world arguments command).ending = .done ∨
      (∃ fault, (runCommand world arguments command).ending = .failed fault) ∨
        ∃ fault, (runCommand world arguments command).ending = .escaped fault := by
  rw [runCommand]
  rcases runOn (produceAndWrite world arguments command) [] with ⟨met | written, log⟩
  · dsimp only
    cases met.report? with
    | some words => exact .inr (.inl ⟨met, rfl⟩)
    | none => exact .inr (.inr ⟨met, rfl⟩)
  · exact .inl rfl

/-- Of a command line that generates or flattens, the faults that are listed escape and no others;
where none does, the run ends with code 0 or 1. -/
theorem run_escapes_iff {line : List Text} (read : readArguments line = .ok arguments)
    (given : arguments.command = some command) (plain : command.compiles = false) :
    (∀ fault, (run world line).ending = .escaped fault ↔ Escapes world arguments command fault) ∧
      ((∀ fault, ¬ Escapes world arguments command fault) ↔
        (run world line).ending.code? = some 0 ∨ (run world line).ending.code? = some 1) := by
  rw [run_eq read given]
  have escapes : ∀ fault, (runCommand world arguments command).ending = .escaped fault ↔
      Escapes world arguments command fault := fun fault => by
    rw [runCommand_escaped_iff, escapes_iff plain]
  refine ⟨escapes, fun none_escapes => ?_, fun code fault h => ?_⟩
  · rcases runCommand_ending world arguments command with done | ⟨fault, failed⟩ | ⟨fault, h⟩
    · exact .inl (by rw [done]; rfl)
    · exact .inr (by rw [failed]; rfl)
    · exact absurd ((escapes fault).mp h) (none_escapes fault)
  · rw [(escapes fault).mpr h] at code
    rcases code with code | code <;> cases code

/-- A configuration file with a lone brace makes the run escape. -/
theorem lone_brace_escapes :
    let world : World := ⟨⟨[(["bad.json"], .file (Utf8.encode "\x7b"))]⟩, .none⟩
    let line : List Text := ["generate", "bad.json"]
    (∃ reason, (run world line).ending = .escaped (.json reason)) ∧
      ¬ ((run world line).ending.code? = some 0 ∨ (run world line).ending.code? = some 1) := by
  intro world line
  let arguments : Arguments := ⟨false, none, [], some (.generate "bad.json" false none)⟩
  have read : readArguments line = .ok arguments := by decide
  have holds : Holds world.tree "bad.json" "\x7b" := ⟨Utf8.encode "\x7b", by decide, by decide⟩
  obtain ⟨reason, refused⟩ : ∃ reason, Json.read "\x7b" = .error reason := ⟨_, rfl⟩
  have escaped : Escapes world arguments (.generate "bad.json" false none) (.json reason) :=
    .configNoJson holds refused
  obtain ⟨escapes, code⟩ := run_escapes_iff read rfl rfl
  exact ⟨⟨reason, (escapes _).mpr escaped⟩, fun h => code.mpr h _ escaped⟩

end CommandLine

end TokenForge

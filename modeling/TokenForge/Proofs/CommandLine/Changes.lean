import TokenForge.Proofs.CommandLine.Production
import TokenForge.Proofs.FileTree

/-!
# What a run changes

A run writes once, after its text has been produced.  `Delivered` says where a text goes:
to the standard output, or to the file of a path, which is the only entry that is then
another one.  A run ends well if and only if its command produces a text and the text is
delivered (`runCommand_done`); otherwise it leaves the files as they were
(`runCommand_not_done`).  `run_changes` puts this together for every command line.
-/

namespace TokenForge

namespace CommandLine

variable {tree : FileTree} {world : World} {arguments : Arguments} {command : Command}
  {log log' : List LogLine} {product : Product} {written : Written} {text output : Text}
  {fault : Fault}

/-! ## Delivering a text -/

/-- What is written when a text goes to a path; the empty path stands for the standard output. -/
inductive Delivered (tree : FileTree) (text : Text) : Text → Written → Prop where
  | shown : Delivered tree text [] ⟨text, tree⟩
  | stored {output place} : output ≠ [] → tree.placeToWrite output = .ok place →
    Delivered tree text output ⟨[], tree.put place (.file (Utf8.encode text))⟩

theorem write_shown (text : Text) (closing : List LogLine) (log : List LogLine) :
    runOn (write tree ⟨text, [], closing⟩) log = ⟨.ok ⟨text, tree⟩, log ++ closing⟩ := rfl

theorem write_stored {c : Char} {cs : Text} (closing : List LogLine) :
    runOn (write tree ⟨text, c :: cs, closing⟩) log =
      match tree.placeToWrite (c :: cs) with
      | .ok place => ⟨.ok ⟨[], tree.put place (.file (Utf8.encode text))⟩, log ++ closing⟩
      | .error reason => ⟨.error (.opening (c :: cs) reason), log⟩ := by
  simp only [write, runOn_bind, runOn_orFail, FileTree.write]
  cases tree.placeToWrite (c :: cs) with
  | ok place => rfl
  | error reason => rfl

theorem write_ok :
    runOn (write tree product) log = ⟨.ok written, log'⟩ ↔
      Delivered tree product.text product.output written ∧ log' = log ++ product.closing := by
  obtain ⟨text, output, closing⟩ := product
  cases output with
  | nil =>
    rw [write_shown]
    constructor
    · rintro ⟨⟩
      exact ⟨.shown, rfl⟩
    · rintro ⟨⟨⟩ | ⟨some_path, _⟩, rfl⟩
      · rfl
      · exact absurd rfl some_path
  | cons c cs =>
    rw [write_stored]
    constructor
    · intro h
      split at h
      next place found =>
        cases h
        exact ⟨.stored (List.cons_ne_nil _ _) found, rfl⟩
      next => cases h
    · rintro ⟨_ | ⟨_, found⟩, rfl⟩
      rw [found]

theorem write_error :
    runOn (write tree product) log = ⟨.error fault, log'⟩ ↔
      ∃ reason, product.output ≠ [] ∧ tree.placeToWrite product.output = .error reason ∧
        fault = .opening product.output reason ∧ log' = log := by
  obtain ⟨text, output, closing⟩ := product
  cases output with
  | nil =>
    rw [write_shown]
    exact ⟨nofun, by rintro ⟨_, some_path, _⟩; exact absurd rfl some_path⟩
  | cons c cs =>
    rw [write_stored]
    cases found : tree.placeToWrite (c :: cs) with
    | ok place => exact ⟨nofun, by rintro ⟨_, _, ⟨⟩, _⟩⟩
    | error reason =>
      constructor
      · rintro ⟨⟩
        exact ⟨reason, List.cons_ne_nil _ _, rfl, rfl, rfl⟩
      · rintro ⟨_, _, ⟨⟩, rfl, rfl⟩
        rfl

/-! ## Whole runs -/

/-- Where a text can go. -/
def Deliverable (tree : FileTree) (output : Text) : Prop :=
  output = [] ∨ ∃ place, tree.placeToWrite output = .ok place

theorem deliverable_iff :
    Deliverable tree output ↔ ∃ written, Delivered tree text output written := by
  constructor
  · rintro (rfl | ⟨place, found⟩)
    · exact ⟨_, .shown⟩
    · by_cases none_named : output = []
      · subst none_named
        exact ⟨_, .shown⟩
      · exact ⟨_, .stored none_named found⟩
  · rintro ⟨_, ⟨⟩ | ⟨_, found⟩⟩
    · exact .inl rfl
    · exact .inr ⟨_, found⟩

theorem produceAndWrite_ok_iff :
    (∃ log', runOn (produceAndWrite world arguments command) log = ⟨.ok written, log'⟩) ↔
      ∃ text output, Produces world arguments command text output ∧
        Delivered world.tree text output written := by
  simp only [produceAndWrite, runOn_bind_ok, write_ok]
  constructor
  · rintro ⟨_, ⟨text, output, closing⟩, _, produced, delivered, rfl⟩
    exact ⟨text, output, produce_ok_iff.mp ⟨_, _, produced⟩, delivered⟩
  · rintro ⟨text, output, produces, delivered⟩
    obtain ⟨closing, _, produced⟩ : ∃ closing log', runOn (produce world arguments command) log =
      ⟨.ok ⟨text, output, closing⟩, log'⟩ := produce_ok_iff.mpr produces
    exact ⟨_, _, _, produced, delivered, rfl⟩

/-- A command whose text can be delivered ends well, and its text is delivered. -/
theorem runCommand_done (produces : Produces world arguments command text output)
    (delivered : Delivered world.tree text output written) :
    let report := runCommand world arguments command
    report.ending = .done ∧ report.stdout = written.stdout ∧ report.tree = written.tree := by
  obtain ⟨log, run⟩ : ∃ log', runOn (produceAndWrite world arguments command) [] =
    ⟨.ok written, log'⟩ := produceAndWrite_ok_iff.mpr ⟨text, output, produces, delivered⟩
  rw [runCommand, run]
  exact ⟨rfl, rfl, rfl⟩

/-- Any other command fails and leaves the files as they were. -/
theorem runCommand_not_done
    (none_delivered : ∀ text output, Produces world arguments command text output →
      ¬ Deliverable world.tree output) :
    let report := runCommand world arguments command
    report.ending ≠ .done ∧ report.tree = world.tree := by
  rw [runCommand]
  cases answer : (runOn (produceAndWrite world arguments command) []).answer with
  | ok written =>
    obtain ⟨text, output, produces, delivered⟩ := produceAndWrite_ok_iff.mp
      ⟨_, show runOn (produceAndWrite world arguments command) [] = ⟨.ok written, _⟩ by
        rw [← answer]⟩
    exact absurd (deliverable_iff.mpr ⟨written, delivered⟩) (none_delivered text output produces)
  | error fault =>
    dsimp only
    cases fault.report? with
    | some words => exact ⟨nofun, rfl⟩
    | none => exact ⟨nofun, rfl⟩

/-- A line for a command runs the command. -/
theorem run_eq {line : List Text} (read : readArguments line = .ok arguments)
    (given : arguments.command = some command) :
    run world line = runCommand world arguments command := by
  rw [run, read]
  dsimp only
  rw [given]

/-- A run that asks for no command changes nothing. -/
theorem run_without_command {line : List Text}
    (none_given : ∀ arguments command, readArguments line = .ok arguments →
      arguments.command ≠ some command) :
    (run world line).ending ≠ .done ∧ (run world line).tree = world.tree := by
  rw [run]
  cases read : readArguments line with
  | error stop => cases stop <;> exact ⟨nofun, rfl⟩
  | ok arguments =>
    dsimp only
    cases given : arguments.command with
    | none => exact ⟨nofun, rfl⟩
    | some command => exact absurd given (none_given arguments command read)

/-- A line asks for a text that goes to a path. -/
def Asks (world : World) (line : List Text) (text output : Text) : Prop :=
  ∃ arguments command, readArguments line = .ok arguments ∧ arguments.command = some command ∧
    Produces world arguments command text output

theorem asks_iff {line : List Text} (read : readArguments line = .ok arguments)
    (given : arguments.command = some command) :
    Asks world line text output ↔ Produces world arguments command text output := by
  constructor
  · rintro ⟨_, _, read', given', produces⟩
    cases read.symm.trans read'
    cases given.symm.trans given'
    exact produces
  · exact fun produces => ⟨arguments, command, read, given, produces⟩

/-- A line asks for one text at most, and for one path that it goes to. -/
theorem Asks.unique {line : List Text} {text' output' : Text} (h : Asks world line text output)
    (h' : Asks world line text' output') : text = text' ∧ output = output' := by
  obtain ⟨arguments, command, read, given, produces⟩ := h
  obtain ⟨closing, log, run⟩ : ∃ closing log', runOn (produce world arguments command) [] =
    ⟨.ok ⟨text, output, closing⟩, log'⟩ := produce_ok_iff.mpr produces
  obtain ⟨closing', log', run'⟩ : ∃ closing log', runOn (produce world arguments command) [] =
    ⟨.ok ⟨text', output', closing⟩, log'⟩ := produce_ok_iff.mpr ((asks_iff read given).mp h')
  rw [run] at run'
  cases run'
  exact ⟨rfl, rfl⟩

/-- A line that asks for a text which can be delivered delivers it. -/
theorem run_delivered {line : List Text} (asks : Asks world line text output)
    (delivered : Delivered world.tree text output written) :
    (run world line).ending = .done ∧ (run world line).stdout = written.stdout ∧
      (run world line).tree = written.tree := by
  obtain ⟨arguments, command, read, given, produces⟩ := asks
  rw [run_eq read given]
  exact runCommand_done produces delivered

/-- Any other line changes nothing. -/
theorem run_not_delivered {line : List Text}
    (none_delivered : ∀ text output, Asks world line text output →
      ¬ Deliverable world.tree output) :
    (run world line).ending ≠ .done ∧ (run world line).tree = world.tree := by
  by_cases called : ∃ arguments command, readArguments line = .ok arguments ∧
      arguments.command = some command
  · obtain ⟨arguments, command, read, given⟩ := called
    rw [run_eq read given]
    exact runCommand_not_done fun text output produces =>
      none_delivered text output ⟨arguments, command, read, given, produces⟩
  · exact run_without_command fun arguments command read given =>
      called ⟨arguments, command, read, given⟩

theorem run_done_iff (world : World) (line : List Text) :
    (run world line).ending = .done ↔
      ∃ text output, Asks world line text output ∧ Deliverable world.tree output := by
  constructor
  · intro ends
    by_contra none_delivered
    push Not at none_delivered
    exact (run_not_delivered none_delivered).1 ends
  · rintro ⟨text, output, asks, deliverable⟩
    obtain ⟨written, delivered⟩ := deliverable_iff.mp deliverable
    exact (run_delivered asks delivered).1

/-- A text that was delivered to a path is read there. -/
theorem run_read {line : List Text} (asks : Asks world line text output)
    (some_output : output ≠ []) (deliverable : Deliverable world.tree output) :
    (run world line).tree.read output = .ok (Utf8.encode text) := by
  obtain ⟨written, delivered⟩ := deliverable_iff.mp deliverable
  rw [(run_delivered asks delivered).2.2]
  cases delivered with
  | shown => exact absurd rfl some_output
  | stored _ found => exact FileTree.read_put found _

end CommandLine

end TokenForge

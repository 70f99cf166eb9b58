import TokenForge.Proofs.Compile.Closure
import TokenForge.Proofs.Compile.Report
import TokenForge.Proofs.Outcome

/-!
# The stages of a compilation

A compilation goes through its stages in one order: the sources are collected, a version is
selected and perhaps installed, the compiler is called, and its output is read.  A stage that
fails is the last one (`compile_cases`), so nothing is done after a failure: no version is
selected when an import has no file, and no contract comes out of an output with errors.

The stages around the call of the compiler are `Silent`, which is why it is called once at
most.
-/

namespace TokenForge

namespace Compile

variable {α β : Type}

open Flatten (Reaches)

/-! ## Runs that do not call the compiler -/

/-- A run that does not call the compiler. -/
def Silent (run : Run α) : Prop := ∀ r, (runOn run r).state.calls = r.calls

theorem Silent.pure (a : α) : Silent (pure a : Run α) := fun _ => rfl

theorem Silent.throw (fault : Fault) : Silent (throw fault : Run α) := fun _ => rfl

theorem Silent.bind {first : Run α} {next : α → Run β} (hfirst : Silent first)
    (hnext : ∀ a, Silent (next a)) : Silent (first >>= next) := by
  intro r
  have early := hfirst r
  rw [runOn_bind]
  rcases hrun : runOn first r with ⟨fault | a, s⟩
  · rw [hrun] at early
    exact early
  · rw [hrun] at early
    exact (hnext a s).trans early

theorem silent_note (n : Note) : Silent (note n) := fun _ => rfl

theorem silent_orFail {δ : Type} (fault : δ → Fault) (given : Except δ α) :
    Silent (orFail fault given) := by
  intro r
  rw [runOn_orFail]

theorem silent_wantedVersion (tools : Toolchain) (source : Text) (version : Option Text)
    (tryInstall : Bool) : Silent (wantedVersion tools source version tryInstall) := by
  unfold wantedVersion
  split
  · exact .pure _
  · refine .bind (silent_orFail _ _) fun detected => ?_
    split
    · exact .throw _
    · exact .throw _
    · exact .pure _

theorem silent_installVersion (tools : Toolchain) (version : Text) :
    Silent (installVersion tools version) := by
  refine .bind (silent_note _) fun _ => .bind (fun _ => rfl) fun _ => ?_
  split
  · exact .pure _
  · split
    · exact .throw _
    · exact .throw _

theorem silent_selectVersion (tools : Toolchain) (source : Text) (version : Option Text)
    (tryInstall : Bool) : Silent (selectVersion tools source version tryInstall) := by
  refine .bind (silent_wantedVersion tools source version tryInstall) fun version =>
    .bind (silent_orFail _ _) fun installed => ?_
  split
  · exact .pure _
  · split
    · exact .throw _
    · exact .bind (silent_installVersion tools version) fun _ => .pure _

theorem silent_warn (warnings : List Json) :
    Silent (warnings.forM fun w => note (.warning w)) := by
  induction warnings with
  | nil => exact .pure _
  | cons w warnings ih => exact .bind (silent_note _) fun _ => ih

theorem silent_refuseErrors (errors : List Json) : Silent (refuseErrors errors) := by
  unfold refuseErrors
  split
  · exact .pure _
  · exact .bind (silent_orFail _ _) fun _ => .throw _

theorem silent_readOutput (output : Json) (wanted : Option Text) (version : Text) :
    Silent (readOutput output wanted version) := by
  unfold readOutput
  refine .bind (silent_orFail _ _) fun items => .bind (silent_orFail _ _) fun errors =>
    .bind (silent_refuseErrors _) fun _ => .bind (silent_orFail _ _) fun warnings =>
    .bind (silent_warn _) fun _ => .bind (silent_orFail _ _) fun contracts => ?_
  -- what follows the note about a contract that is not put out
  extract_lets names pick
  have silent : ∀ noted, Silent (pick noted) := by
    intro noted
    dsimp only [pick]
    split
    · exact .throw _
    · exact .throw _
    · exact .bind (silent_orFail _ _) fun _ => .bind (silent_orFail _ _) fun _ =>
        .bind (silent_orFail _ _) fun _ => .pure _
  split
  · split
    · exact .bind (silent_note _) silent
    · exact silent ()
  · exact silent ()

/-! ## The stages -/

theorem runOn_gather (lookup : Text → Option Text) (limit : Nat) (source : Text) (r : Record) :
    runOn (gather lookup limit source) r =
      ⟨(collectSources lookup limit entryUnit source).answer.mapError .sources,
        { r with asked := (collectSources lookup limit entryUnit source).asked }⟩ := by
  simp only [gather, runOn_bind, runOn_modify, runOn_orFail]

/-- The compiler is called once. -/
theorem calls_callCompiler (tools : Toolchain) (input : Json) (version : Text) (r : Record) :
    (runOn (callCompiler tools input version) r).state.calls = r.calls ++ [⟨input, version⟩] := by
  rw [callCompiler, runOn_bind, runOn_modify]
  dsimp only
  split
  · rfl
  · refine (Silent.bind (silent_orFail _ _) fun items =>
      .bind (silent_orFail _ _) fun errors => ?_) _
    split
    · exact .throw _
    · exact .bind (silent_orFail _ _) fun _ => .throw _
  · rfl
  · rfl

/-- The call answers with an output if and only if the compiler puts it out. -/
theorem answer_callCompiler (tools : Toolchain) (input : Json) (version : Text) (r : Record)
    (output : Json) :
    (runOn (callCompiler tools input version) r).answer = .ok output ↔
      tools.compile input version = .ok output := by
  rw [callCompiler, runOn_bind, runOn_modify]
  cases tools.compile input version with
  | ok other => simp
  | error fault =>
    cases fault with
    | rejected rejection =>
      -- A rejection is a fault, whatever can be read of it.
      simp only [reduceCtorEq, iff_false, runOn_bind, runOn_orFail]
      cases itemsOf rejection.diagnostics with
      | error fault => simp [Except.mapError]
      | ok items =>
        dsimp only [Except.mapError]
        rcases messages "error" items with fault | _ | ⟨error, errors⟩
        · simp
        · simp
        · simp only [runOn_bind, runOn_orFail]
          cases messageTexts (error :: errors) <;> simp [Except.mapError]
    | _ => simp

/-! ## The order of the stages -/

section Order

variable (tools : Toolchain) (lookup : Text → Option Text) (limit : Nat) (order : Order)

/-- The record of a compilation after its search for sources. -/
def gathered : Record :=
  { Record.empty with asked := (collectSources lookup limit entryUnit order.source).asked }

/-- The selection of a version in a compilation. -/
def selection : Outcome Fault Record Text :=
  runOn (selectVersion tools order.source order.version order.tryInstall)
    (gathered lookup limit order)

/-- How a compilation ends: the first stage that fails is the last one. -/
inductive Stages : Outcome Fault Record Compiled → Prop where
  | unfound {fault} :
    (collectSources lookup limit entryUnit order.source).answer = .error fault →
    Stages ⟨.error (.sources fault), gathered lookup limit order⟩
  | unselected {sources fault r} :
    (collectSources lookup limit entryUnit order.source).answer = .ok sources →
    selection tools lookup limit order = ⟨.error fault, r⟩ → r.calls = [] →
    Stages ⟨.error fault, r⟩
  | uncompiled {sources version fault r} :
    (collectSources lookup limit entryUnit order.source).answer = .ok sources →
    (selection tools lookup limit order).answer = .ok version →
    (∀ output, tools.compile (inputOf sources order.settings) version ≠ .ok output) →
    r.calls = [⟨inputOf sources order.settings, version⟩] →
    Stages ⟨.error fault, r⟩
  | read {sources version output r} :
    (collectSources lookup limit entryUnit order.source).answer = .ok sources →
    (selection tools lookup limit order).answer = .ok version →
    tools.compile (inputOf sources order.settings) version = .ok output →
    r.calls = [⟨inputOf sources order.settings, version⟩] →
    Stages (runOn (readOutput output order.contract version) r)

theorem runOn_compile :
    runOn (compile tools lookup limit order) .empty =
      match (collectSources lookup limit entryUnit order.source).answer with
      | .error fault => ⟨.error (.sources fault), gathered lookup limit order⟩
      | .ok sources =>
        match selection tools lookup limit order with
        | ⟨.error fault, r⟩ => ⟨.error fault, r⟩
        | ⟨.ok version, r⟩ =>
          runOn (callCompiler tools (inputOf sources order.settings) version >>= fun output =>
              readOutput output order.contract version)
            { r with notes := r.notes ++ [.compiling sources.length version] } := by
  rw [compile, runOn_bind, runOn_gather]
  cases (collectSources lookup limit entryUnit order.source).answer with
  | error fault => rfl
  | ok sources =>
    change runOn (_ >>= fun _ => _) (gathered lookup limit order) = _
    rw [runOn_bind, selection]
    rcases runOn (selectVersion _ _ _ _) _ with ⟨_ | version, r⟩
    · rfl
    · dsimp only
      rw [runOn_bind, runOn_note]

/-- A compilation ends in one of these ways. -/
theorem stages_compile :
    Stages tools lookup limit order (runOn (compile tools lookup limit order) .empty) := by
  have before := silent_selectVersion tools order.source order.version order.tryInstall
    (gathered lookup limit order)
  change (selection tools lookup limit order).state.calls = [] at before
  rw [runOn_compile]
  cases found : (collectSources lookup limit entryUnit order.source).answer with
  | error fault => exact .unfound found
  | ok sources =>
    rcases selected : selection tools lookup limit order with ⟨fault | version, r⟩
    · rw [selected] at before
      exact .unselected found selected before
    · rw [selected] at before
      dsimp only at before ⊢
      rw [runOn_bind]
      generalize noted : { r with notes := r.notes ++ [Note.compiling sources.length version] } = s
      have quiet : s.calls = [] := noted ▸ before
      have calls := calls_callCompiler tools (inputOf sources order.settings) version s
      have outputs := answer_callCompiler tools (inputOf sources order.settings) version s
      rw [quiet, List.nil_append] at calls
      generalize runOn (callCompiler _ _ _) s = called at calls outputs ⊢
      obtain ⟨fault | output, t⟩ := called
      · refine .uncompiled found (by rw [selected]) (fun output compiled => ?_) calls
        cases (outputs output).mpr compiled
      · exact .read found (by rw [selected]) ((outputs output).mp rfl) calls

variable {tools lookup limit order} {outcome : Outcome Fault Record Compiled}

/-- The calls of a compilation: none, or one for the sources that were found with the version
that was selected. -/
theorem Stages.calls (h : Stages tools lookup limit order outcome) :
    outcome.state.calls = [] ∨ ∃ sources version,
      (collectSources lookup limit entryUnit order.source).answer = .ok sources ∧
      (selection tools lookup limit order).answer = .ok version ∧
      outcome.state.calls = [⟨inputOf sources order.settings, version⟩] := by
  cases h with
  | unfound => exact .inl rfl
  | unselected _ _ calls => exact .inl calls
  | uncompiled found selected _ calls => exact .inr ⟨_, _, found, selected, calls⟩
  | read found selected _ calls =>
    exact .inr ⟨_, _, found, selected, (silent_readOutput _ _ _ _).trans calls⟩

/-- A compilation without an output has no result. -/
theorem Stages.compiled (h : Stages tools lookup limit order outcome) {result : Compiled}
    (ends : outcome.answer = .ok result) : ∃ input version output r,
      outcome = runOn (readOutput output order.contract version) r ∧
      outcome.state.calls = [⟨input, version⟩] ∧ tools.compile input version = .ok output := by
  cases h with
  | unfound => cases ends
  | unselected => cases ends
  | uncompiled => cases ends
  | read _ _ compiled calls =>
    exact ⟨_, _, _, _, rfl, (silent_readOutput _ _ _ _).trans calls, compiled⟩

/-- An output is read. -/
theorem Stages.reads (h : Stages tools lookup limit order outcome) {call : Call} {output : Json}
    (called : call ∈ outcome.state.calls)
    (compiled : tools.compile call.input call.version = .ok output) :
    ∃ r, outcome = runOn (readOutput output order.contract call.version) r := by
  cases h with
  | unfound => cases called
  | unselected _ _ calls =>
    rw [calls] at called
    cases called
  | uncompiled _ _ silent calls =>
    rw [calls] at called
    cases List.mem_singleton.mp called
    exact absurd compiled (silent output)
  | read _ _ compiled' calls =>
    rw [silent_readOutput, calls] at called
    cases List.mem_singleton.mp called
    cases compiled.symm.trans compiled'
    exact ⟨_, rfl⟩

end Order

/-! ## Sources and inputs -/

/-- The units of an input are its sources. -/
theorem sources_inputOf {sources : Assoc Text} (some_unit : sources ≠ []) (settings : Json) :
    (inputOf sources settings).get? "sources" =
      some (.object (sources.map fun unit => (unit.1, unitJson unit.2))) := by
  obtain ⟨unit, units, rfl⟩ := List.exists_cons_of_ne_nil some_unit
  rfl

section Theorem

variable (tools : Toolchain) (files : Assoc Text) (limit : Nat) (order : Order)

theorem collectSources_ne_nil (enough : files.length ≤ limit) {entry source : Text}
    {sources : Assoc Text}
    (found : (collectSources (Assoc.get? files) limit entry source).answer = .ok sources) :
    sources ≠ [] := by
  rw [collectSources_eq_of_le files enough] at found
  obtain ⟨_, _, _, _, units⟩ := collectSources_closure files entry source
  rintro rfl
  cases (units [] found).1

/-- A compilation of files with a compiler whose outputs are well-formed calls the compiler once
at most.

* If an import has no file, it ends with the path of one that has none.  Then no tool was used:
  nothing was installed or compiled, and with other tools it ends the same.
* A call of the compiler is for exactly the sources that were found, with the version that was
  selected.
* If there is a result, the compiler put out an output without errors.  The result has the
  warnings of that output in order and the version that was called, and the chosen contract of
  the entry unit with its own interface and codes.
* If the compiler put out an output with errors, they are the fault.  If it has no errors and no
  contract, that is the fault.  Otherwise there is a result. -/
theorem compile_stages (enough : files.length ≤ limit)
    (wellFormed : ∀ input version output, tools.compile input version = .ok output →
      WellFormed output) :
    let content := contentOf (Assoc.get? files) entryUnit order.source
    let found := collectSources (Assoc.get? files) limit entryUnit order.source
    let outcome := runOn (compile tools (Assoc.get? files) limit order) .empty
    outcome.state.calls.length ≤ 1 ∧
    ((∃ path, Reaches content entryUnit path ∧ content path = none) →
      (∃ path, Reaches content entryUnit path ∧ content path = none ∧
        outcome.answer = .error (.sources (.missing path)) ∧
        (Fault.sources (.missing path)).message? = some ("File not found: " ++ path)) ∧
      outcome.state = { Record.empty with asked := found.asked } ∧
      ∀ others, runOn (compile others (Assoc.get? files) limit order) .empty = outcome) ∧
    (∀ call ∈ outcome.state.calls, ∃ sources, found.answer = .ok sources ∧
      call.input = inputOf sources order.settings ∧
      call.input.get? "sources" =
        some (.object (sources.map fun unit => (unit.1, unitJson unit.2))) ∧
      (runOn (selectVersion tools order.source order.version order.tryInstall)
        { Record.empty with asked := found.asked }).answer = .ok call.version) ∧
    (∀ result, outcome.answer = .ok result → ∃ input output contract code deployed,
      outcome.state.calls = [⟨input, result.version⟩] ∧
      tools.compile input result.version = .ok output ∧
      diagnosed output "error" = [] ∧
      result.warnings = (diagnosed output "warning").map messageOf ∧
      Chosen (Assoc.keys (contractsIn output entryUnit)) order.contract result.name ∧
      Assoc.get? (contractsIn output entryUnit) result.name = some contract ∧
      contract.get? "abi" = some result.interface ∧
      codeText? contract "bytecode" = some code ∧ result.bytecode = "0x" ++ code ∧
      codeText? contract "deployedBytecode" = some deployed ∧
      result.deployedBytecode = "0x" ++ deployed) ∧
    ∀ call ∈ outcome.state.calls, ∀ output,
      tools.compile call.input call.version = .ok output →
      (diagnosed output "error" ≠ [] →
        outcome.answer = .error (.failed (textsOf output "error"))) ∧
      (diagnosed output "error" = [] → contractsIn output entryUnit = [] →
        outcome.answer = .error .noContract) ∧
      (diagnosed output "error" = [] → contractsIn output entryUnit ≠ [] →
        ∃ result, outcome.answer = .ok result) := by
  intro content found outcome
  have stages : Stages tools (Assoc.get? files) limit order outcome := stages_compile ..
  have closure := collectSources_closure files entryUnit order.source
  rw [← collectSources_eq_of_le files enough] at closure
  obtain ⟨_, _, stuck, missing, _⟩ := closure
  refine ⟨?calls, ?unfound, ?input, ?result, ?output⟩
  case calls =>
    rcases stages.calls with calls | ⟨_, _, _, _, calls⟩ <;> simp [calls]
  case unfound =>
    intro unfound
    obtain ⟨path, fault⟩ := stuck.mpr unfound
    have ends : ∀ others, runOn (compile others (Assoc.get? files) limit order) .empty =
        ⟨.error (.sources (.missing path)), gathered (Assoc.get? files) limit order⟩ := by
      intro others
      rw [runOn_compile, fault]
    obtain ⟨reached, absent⟩ := missing path fault
    refine ⟨⟨path, reached, absent, ?_, rfl⟩, ?_, fun others => ?_⟩
    · exact congrArg Outcome.answer (ends tools)
    · exact congrArg Outcome.state (ends tools)
    · exact (ends others).trans (ends tools).symm
  case input =>
    intro call called
    rcases stages.calls with none | ⟨sources, version, answer, selected, one⟩
    · rw [none] at called
      cases called
    · rw [one] at called
      cases List.mem_singleton.mp called
      exact ⟨sources, answer, rfl,
        sources_inputOf (collectSources_ne_nil files limit enough answer) _, selected⟩
  case result =>
    intro result ends
    obtain ⟨input, version, output, r, same, calls, compiled⟩ := stages.compiled ends
    have reads := reads_readOutput (wellFormed _ _ _ compiled) order.contract version r
    rw [← same, ends] at reads
    cases reads with
    | contract clean chosen stored abi code deployed =>
      exact ⟨input, output, _, _, _, calls, compiled, clean, rfl, chosen, stored, abi, code, rfl,
        deployed, rfl⟩
  case output =>
    intro call called output compiled
    obtain ⟨r, same⟩ := stages.reads called compiled
    have reads := reads_readOutput (wellFormed _ _ _ compiled) order.contract call.version r
    rw [← same] at reads
    generalize outcome.answer = answer at reads ⊢
    cases reads with
    | refused errors => exact ⟨fun _ => rfl, fun none => absurd none errors,
        fun none => absurd none errors⟩
    | empty none empty => exact ⟨fun errors => absurd none errors, fun _ _ => rfl,
        fun _ some => absurd empty some⟩
    | contract none chosen =>
      refine ⟨fun errors => absurd none errors, fun _ empty => ?_, fun _ _ => ⟨_, rfl⟩⟩
      have there := chosen.mem
      rw [empty] at there
      cases there

end Theorem

/-! ## A contract and the file that it imports -/

/-- A contract by its name, with codes that tell it from others. -/
def sampleContract (code : Text) : Json :=
  .object [("abi", .array []), ("evm", .object [
    ("bytecode", .object [("object", .text code)]),
    ("deployedBytecode", .object [("object", .text code)])])]

/-- Two contracts, and a warning. -/
def sampleOutput : Json :=
  .object [
    ("errors", .array [.object [("severity", .text "warning"), ("message", .text "unused")]]),
    ("contracts", .object [(entryUnit, .object [
      ("Base", sampleContract "01"), ("MyToken", sampleContract "02")])])]

/-- One version of the compiler, which puts out the two contracts. -/
def sampleTools : Toolchain where
  installed := ["0.8.20"]
  installable := []
  install _ := none
  compile _ _ := .ok sampleOutput

/-- An order without a version and without a contract. -/
def sampleOrder : Order where
  source := "pragma solidity ^0.8.0;\nimport \"Base.sol\";\ncontract MyToken is Base \x7b\x7d\n"
  contract := none
  version := none
  tryInstall := false
  settings := .null

/-- The imported file. -/
def sampleUnits : Assoc Text := [("Base.sol", "contract Base \x7b\x7d\n")]

theorem wellFormed_sampleOutput : WellFormed sampleOutput where
  diagnostics := by
    intro part member
    cases member
    refine ⟨_, rfl, ?_⟩
    intro item member
    cases List.mem_singleton.mp member
    exact ⟨_, rfl, rfl⟩
  units := by
    intro part member
    cases member
    refine ⟨rfl, ?_⟩
    intro unit member
    cases member
    rfl
  named := by
    have names : (contractsIn sampleOutput entryUnit).map Prod.fst = ["Base", "MyToken"] := rfl
    intro c member empty
    have named := List.mem_map_of_mem (f := Prod.fst) member
    rw [names, empty] at named
    revert named
    decide
  compiled := by
    intro c member
    rcases member with _ | ⟨_, _ | ⟨_, impossible⟩⟩
    · exact ⟨rfl, rfl, rfl⟩
    · exact ⟨rfl, rfl, rfl⟩
    · cases impossible

/-- Nothing is asked for, so the contract is returned whose name ends in `Token`. -/
theorem compile_stages_sampleTools :
    ∃ result output,
      (runOn (compile sampleTools (Assoc.get? sampleUnits) 1 sampleOrder) .empty).answer =
        .ok result ∧
      result.name = "MyToken" ∧ result.version = "0.8.20" ∧ result.warnings.length = 1 ∧
      Chosen (Assoc.keys (contractsIn output entryUnit)) none result.name := by
  have wellFormed : ∀ input version output, sampleTools.compile input version = .ok output →
      WellFormed output := by
    intro input version output compiled
    cases compiled
    exact wellFormed_sampleOutput
  have ends : (match (runOn (compile sampleTools (Assoc.get? sampleUnits) 1
      sampleOrder) .empty).answer with
    | .ok result => some (result.name, result.version, result.warnings.length)
    | .error _ => none) = some ("MyToken".toList, "0.8.20".toList, 1) := by
    decide +kernel
  obtain ⟨_, _, _, results, _⟩ := compile_stages sampleTools sampleUnits 1 sampleOrder
    (by decide) wellFormed
  generalize (runOn (compile sampleTools (Assoc.get? sampleUnits) 1 sampleOrder) .empty).answer =
    answer at ends results
  cases answer with
  | error fault => cases ends
  | ok result =>
    obtain ⟨_, output, _, _, _, _, _, _, _, chosen, _⟩ := results result rfl
    simp only [Option.some.injEq, Prod.mk.injEq] at ends
    obtain ⟨name, version, warnings⟩ := ends
    exact ⟨result, output, rfl, name, version, warnings, chosen⟩

end Compile

end TokenForge

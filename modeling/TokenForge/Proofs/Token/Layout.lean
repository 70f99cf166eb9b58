import TokenForge.Proofs.Solidity.Lines
import TokenForge.Token.Source

/-!
# The layout of a generated source

A generated source is the lines before the contract, its documentation and its opening, the
state, the events, the constructor, and the functions (`Features.source_text`).

Most of these lines are the library's own and hold no text of the features.  There are
finitely many of them (`Features.ownLines`), so a property that can be decided is checked once:
the functions are among `ownFunctions` (`Features.functions_own`), the declarations are in
`ownState`, and the statements of the constructor are in `ownSetup` or are the five of
`Features.pastedSetup`.
-/

namespace TokenForge

namespace Token

open Solidity
open Text (unlines unlines_append unlines_cons)

namespace Features

variable (f : Features)

/-! ## The whole source -/

/-- The lines before the contract but for the empty one. -/
def headLines : List Text :=
  f.unit.preambleLines ++ (f.bases.map Base.path).map importLine

/-- The lines of the state and the events. -/
def stateLines : List Text :=
  spaced (f.state.map Declaration.print) ++ spaced (f.events.map Event.print)

/-- The lines of the functions. -/
def functionLines : List Text := f.functions.flatMap fun g => [] :: indent g.print

/-- The lines of the contract behind its documentation. -/
def codeLines : List Text :=
  f.contract.opening ::
    (f.stateLines ++ indent f.constructor.print ++ f.functionLines ++ [closing])

theorem bases_ne_nil : f.bases ≠ [] := by simp [bases]

theorem documentation_ne_nil : f.documentation ≠ [] := by
  unfold documentation
  exact List.cons_ne_nil _ _

theorem contract_lines : f.contract.lines = f.documentation ++ f.codeLines := by
  rw [Contract.lines, Contract.bodyLines_eq, codeLines, stateLines, functionLines]
  rfl

/-- A generated source by lines. -/
theorem source_text :
    f.source.text = unlines (f.headLines ++ [] :: (f.documentation ++ f.codeLines)) := by
  have imports : f.unit.imports ≠ [] := by
    simpa [unit] using f.bases_ne_nil
  have text := f.unit.print_eq imports f.documentation_ne_nil
  rw [unlines_append, headLines, ← contract_lines]
  exact text

/-! ## The functions -/

/-- Features without texts, of which all parts but those that are given are on. -/
def sample (access : AccessChoice) (limited taxed pausable : Bool) : Features where
  name := []
  symbol := []
  contractName := []
  initialSupply := []
  shownSupply := []
  maxSupply := []
  hasInitialSupply := true
  hasMaxSupply := limited
  hasTax := taxed
  mintable := true
  burnable := true
  pausable
  buyTax := []
  sellTax := []
  taxReceiver := none
  access

/-- The access models that guard functions differently. -/
def guardChoices : List AccessChoice := [.known .ownable, .known .roles, .other []]

/-- The functions with an access model. -/
def guardedFunctions (access : AccessChoice) : List Function :=
  (sample access true true true).functions ++ (sample access false false true).mint

/-- The hooks with one part off. -/
def partialHooks : List Function :=
  (sample (.other []) false false true).transferHook ++
    (sample (.other []) true true false).transferHook

/-- All the functions that there are. -/
def ownFunctions : List Function := guardChoices.flatMap guardedFunctions ++ partialHooks

theorem exists_guardChoice :
    ∃ access ∈ guardChoices, ∀ role limited taxed pausable,
      f.guard role = (sample access limited taxed pausable).guard role := by
  obtain ⟨_, _, _, _, _, _, _, _, _, _, _, _, _, _, _, access⟩ := f
  rcases access with (_ | _ | _) | label
  · exact ⟨.known .ownable, by simp [guardChoices], fun _ _ _ _ => rfl⟩
  · exact ⟨.known .roles, by simp [guardChoices], fun _ _ _ _ => rfl⟩
  · exact ⟨.other [], by simp [guardChoices], fun _ _ _ _ => rfl⟩
  · exact ⟨.other [], by simp [guardChoices], fun _ _ _ _ => rfl⟩

theorem isUnrestricted_sample {access : AccessChoice} (known : access ∈ guardChoices)
    (limited taxed pausable : Bool) :
    (sample access limited taxed pausable).isUnrestricted = false := by
  simp only [guardChoices, List.mem_cons, List.not_mem_nil, or_false] at known
  rcases known with rfl | rfl | rfl <;> rfl

theorem transferHook_own : ∀ g ∈ f.transferHook, g ∈ ownFunctions := by
  intro g member
  rw [transferHook, List.mem_ite_nil_right] at member
  obtain ⟨needed, here⟩ := member
  simp only [ownFunctions, partialHooks, List.mem_append]
  cases taxed : f.hasTax <;> cases pausable : f.pausable <;> rw [taxed, pausable] at needed <;>
    simp only [hookBody, taxed, pausable] at here
  case false.false => cases needed
  case false.true => exact .inr (.inl here)
  case true.false => exact .inr (.inr here)
  case true.true =>
    have inside : g ∈ guardedFunctions (.other []) :=
      List.mem_append_left _ (List.mem_append_left _ (List.mem_append_right _ here))
    exact .inl (List.mem_flatMap.mpr ⟨.other [], by simp [guardChoices], inside⟩)

/-- Every function is one of those that there are. -/
theorem functions_own : ∀ g ∈ f.functions, g ∈ ownFunctions := by
  intro g member
  obtain ⟨access, known, guarded⟩ := f.exists_guardChoice
  have open_ := isUnrestricted_sample known true true true
  have own : ∀ {access}, access ∈ guardChoices → g ∈ guardedFunctions access →
      g ∈ ownFunctions := fun known inside =>
    List.mem_append_left _ (List.mem_flatMap.mpr ⟨_, known, inside⟩)
  simp only [guardedFunctions, functions, List.mem_append, or_assoc] at member own
  rcases member with here | here | here | here | here | here
  · rw [mint, List.mem_ite_nil_right, guarded _ f.hasMaxSupply f.hasMaxSupply true] at here
    cases limited : f.hasMaxSupply <;> rw [limited] at here
    · exact own known (.inr (.inr (.inr (.inr (.inr (.inr here.2))))))
    · exact own known (.inl here.2)
  · rw [pause, List.mem_ite_nil_right, guarded _ true true true] at here
    exact own known (.inr (.inl (by rw [pause, open_]; exact here.2)))
  · rw [taxAdmin, List.mem_ite_nil_right, setTaxPercent, setTaxReceiver, setDexPair,
      setExcludedFromTax, guarded _ true true true] at here
    exact own known (.inr (.inr (.inl (by rw [taxAdmin, open_]; exact here.2))))
  · rw [disableMinting, List.mem_ite_nil_right, guarded _ true true true] at here
    exact own known (.inr (.inr (.inr (.inl (by rw [disableMinting, open_]; exact here.2)))))
  · exact f.transferHook_own g here
  · rw [supportsInterface, List.mem_ite_nil_right] at here
    have roles : AccessChoice.known .roles ∈ guardChoices := by simp [guardChoices]
    exact own roles (.inr (.inr (.inr (.inr (.inr (.inl here.2))))))

/-! ## State and events -/

/-- All the declarations that there are. -/
def ownState : List Declaration :=
  [.variable "uint256" "maxSupply", .variable "bool" "mintable"] ++ taxState ++
    [.role minterRole, .role pauserRole]

theorem state_own : ∀ d ∈ f.state, d ∈ ownState := by
  intro d member
  simp only [state, List.mem_append, List.mem_ite_nil_right, List.mem_singleton] at member
  rcases member with (((⟨_, rfl⟩ | ⟨_, rfl⟩) | ⟨_, here⟩) | ⟨_, rfl⟩) | ⟨_, rfl⟩
  · simp [ownState]
  · simp [ownState]
  · simp [ownState, here]
  · simp [ownState]
  · simp [ownState]

/-! ## The constructor -/

/-- What follows the symbol in the line that opens the constructor. -/
def constructorEnd : Text := if f.isOwnable then "\") Ownable(msg.sender) \x7b" else "\") \x7b"

/-- The line that opens the constructor. -/
def constructorOpening : Text :=
  "constructor() ERC20(\"" ++ (f.name ++ ("\", \"" ++ (f.symbol ++ f.constructorEnd)))

theorem constructor_bases : f.constructor.bases =
    [.call "ERC20" [.quoted f.name, .quoted f.symbol]] ++
      (if f.isOwnable then [.call "Ownable" [sender]] else []) := rfl

theorem print_constructorBases : List.intercalate [' '] (f.constructor.bases.map Expr.print) ++
    " \x7b" = "ERC20(\"" ++ (f.name ++ ("\", \"" ++ (f.symbol ++ f.constructorEnd))) := by
  rw [constructor_bases, constructorEnd]
  cases f.isOwnable with
  | true => simp [Expr.print, printArguments, commaList, sender]
  | false => simp [Expr.print, printArguments, commaList]

theorem constructor_print : f.constructor.print =
    f.constructorOpening :: (indent (printBody f.constructor.body) ++ [closing]) := by
  have start : "constructor() ERC20(\"".toList = "constructor() ".toList ++ "ERC20(\"".toList := by
    simp
  have line : "constructor() ".toList ++
      List.intercalate [' '] (f.constructor.bases.map Expr.print) ++ " \x7b".toList =
        f.constructorOpening := by
    unfold constructorOpening
    rw [start, List.append_assoc, print_constructorBases, List.append_assoc]
  unfold Constructor.print
  rw [← line]

/-- All the statements of constructors without texts of the features. -/
def ownSetup : List Stmt := [
  grant adminRole, grant minterRole, grant pauserRole,
  .assign (.name "mintable") (.name "true"),
  .gap,
  .assign (.entry "isExcludedFromTax" sender) (.name "true"),
  .assign (.entry "isExcludedFromTax" (.call "address" [.name "this"])) (.name "true")]

/-- The statements of the constructor with texts of the features. -/
def pastedSetup : List Stmt := [
  .assign (.name "maxSupply") (scaled f.maxSupply),
  .assign (.name "buyTaxPercent") (.pasted f.buyTax),
  .assign (.name "sellTaxPercent") (.pasted f.sellTax),
  .assign (.name "taxReceiver") f.receiver,
  .run (.call "_mint" [sender, scaled f.initialSupply])]

theorem mem_withGap {s : Stmt} {body : List Stmt} (h : s ∈ withGap body) : s ∈ body ∨ s = .gap := by
  cases body with
  | nil => cases h
  | cons first body => simpa [withGap, or_assoc] using h

theorem mem_setup {s : Stmt} (h : s ∈ f.setup) : s ∈ ownSetup ∨ s ∈ f.pastedSetup := by
  simp only [setup, grants, taxSetup, List.mem_append, List.mem_ite_nil_right, List.mem_cons,
    List.not_mem_nil, or_false] at h
  rcases h with ((⟨_, (rfl | ⟨_, rfl⟩) | ⟨_, rfl⟩⟩ | ⟨_, rfl⟩) | ⟨_, rfl⟩) |
    ⟨_, rfl | rfl | rfl | rfl | rfl | rfl⟩ <;> simp [ownSetup, pastedSetup]

/-- Every statement of the constructor is the library's own or one with a text. -/
theorem mem_constructorBody {s : Stmt} (h : s ∈ f.constructor.body) :
    s ∈ ownSetup ∨ s ∈ f.pastedSetup := by
  simp only [constructor] at h
  split at h
  · rcases List.mem_append.mp h with here | here
    · rcases mem_withGap here with inside | rfl
      · exact f.mem_setup inside
      · exact .inl (by simp [ownSetup])
    · rw [List.mem_singleton.mp here]
      exact .inr (by simp [pastedSetup])
  · exact f.mem_setup h

/-! ## Checked properties -/

/-- All the lines that there are of functions, declarations, events and statements without texts of
the features. -/
def ownLines : List Text :=
  ownFunctions.flatMap Function.print ++ ownState.map Declaration.print ++
    taxEvents.map Event.print ++ ownSetup.flatMap Stmt.print

section Checked

variable {q : Text → Bool} (checked : ownLines.all q = true)

include checked

theorem forall_ownLines : ∀ line ∈ ownLines, q line = true := List.all_eq_true.mp checked

theorem forall_functions : ∀ g ∈ f.functions, ∀ line ∈ g.print, q line = true := by
  intro g member line here
  have own : line ∈ ownFunctions.flatMap Function.print :=
    List.mem_flatMap.mpr ⟨g, f.functions_own g member, here⟩
  exact forall_ownLines checked line (by simp [ownLines, own])

theorem forall_state : ∀ d ∈ f.state, q d.print = true := by
  intro d member
  have own : d.print ∈ ownState.map Declaration.print :=
    List.mem_map_of_mem (f.state_own d member)
  exact forall_ownLines checked _ (by simp [ownLines, own])

theorem forall_events : ∀ e ∈ f.events, q e.print = true := by
  intro e member
  rw [events, List.mem_ite_nil_right] at member
  have own : e.print ∈ taxEvents.map Event.print := List.mem_map_of_mem member.2
  exact forall_ownLines checked _ (by simp [ownLines, own])

theorem forall_ownSetup : ∀ s ∈ ownSetup, ∀ line ∈ s.print, q line = true := by
  intro s member line here
  have own : line ∈ ownSetup.flatMap Stmt.print := List.mem_flatMap.mpr ⟨s, member, here⟩
  exact forall_ownLines checked line (by simp [ownLines, own])

/-- A property of the lines of the statements of a constructor. -/
theorem forall_constructorBody {p : Text → Prop} (holds : ∀ line, q line = true → p line)
    (pasted : ∀ s ∈ f.pastedSetup, ∀ line ∈ s.print, p line) :
    ∀ s ∈ f.constructor.body, ∀ line ∈ s.print, p line := by
  intro s member
  rcases f.mem_constructorBody member with own | texts
  · exact fun line here => holds line (forall_ownSetup checked s own line here)
  · exact pasted s texts

end Checked

end Features

end Token

end TokenForge

import TokenForge.Proofs.Flatten.Junction
import TokenForge.Proofs.Flatten.Reachable
import TokenForge.Proofs.Token.Documentation

/-!
# A flattened source keeps its contract

The contract of a generated source begins with a comment, behind an empty line.  Whatever the
files that the source imports hold, that junction keeps the last passes of a flattening away from
the contract, and the contract itself gives them nothing to do: no line of it begins with `pragma`
(`contract_still`), and no two empty lines of it are neighbours (`block_contract`).  So a
flattening ends with the contract as it was generated, if no directive is injected into it
(`flattenSource_contract`).
-/

namespace TokenForge

namespace Token

open Solidity
open Flatten (Calm SingleGaps Expands Expansion Lookup Session flattenSource tidy Above)
open Text (unlines unlines_append unlines_cons isBlankLine piecesFrom pieces charBefore
  charBefore_append charBefore_unlines dropSpaces startsWith AtBreak atBreak_cons)

/-! ## Lines that no pragma begins -/

/-- A line without carriage returns that does not begin with `pragma`. -/
structure Still (line : Text) : Prop where
  withoutReturn : '\r' ∉ line
  plain : startsWith "pragma" (dropSpaces line) = false

instance (line : Text) : Decidable (Still line) :=
  decidable_of_iff (_ ∧ _) ⟨fun h => ⟨h.1, h.2⟩, fun h => ⟨h.withoutReturn, h.plain⟩⟩

theorem Still.calm {line : Text} (h : Still line) (single : '\n' ∉ line) : Calm line where
  single
  withoutReturn := h.withoutReturn
  unfeatured rest := by
    refine Flatten.feature_eq_none fun left word => ?_
    rw [dropSpaces, Text.dropWhile_append_of_atBreak (by decide) (atBreak_cons rest)] at word
    obtain ⟨more, split⟩ := Text.isPrefix_of_after? (by decide) word (atBreak_cons rest)
    have plain := h.plain
    rw [dropSpaces, ← split, startsWith, Text.after?_append] at plain
    cases plain

theorem indents_still : Indents Still where
  empty := ⟨by simp, rfl⟩
  indent h := ⟨by simpa [step] using h.withoutReturn, h.plain⟩

namespace Features

theorem still_ownLines : (ownLines.all fun line => decide (Still line)) = true := by
  decide +kernel

theorem still_functions (f : Features) : ∀ g ∈ f.functions, ∀ line ∈ g.print, Still line :=
  fun g member line here =>
    of_decide_eq_true (f.forall_functions still_ownLines g member line here)

theorem still_state (f : Features) : ∀ d ∈ f.state, Still d.print :=
  fun d member => of_decide_eq_true (f.forall_state still_ownLines d member)

theorem still_events (f : Features) : ∀ e ∈ f.events, Still e.print :=
  fun e member => of_decide_eq_true (f.forall_events still_ownLines e member)

end Features

section Still

variable (c : Config)

theorem still_pastedSetup : ∀ s ∈ c.features.pastedSetup, ∀ line ∈ s.print, Still line := by
  have number : ∀ n, '\r' ∉ Text.ofNat n := fun n => (alphanumeric_ofNat n).not_mem (by decide)
  have scaled : ∀ n, '\r' ∉ (Features.scaled (Text.ofNat n)).print := by
    simp [Features.scaled, Expr.print, printArguments, commaList, Operator.sign, number]
  have receiver : '\r' ∉ c.features.receiver.print := by
    unfold Features.receiver
    cases given : c.features.taxReceiver with
    | none =>
      show '\r' ∉ sender.print
      decide
    | some account =>
      obtain ⟨address, _, rfl⟩ := Option.map_eq_some_iff.mp given
      simpa [Expr.print, printArguments, commaList] using
        (alphanumeric_checksummed address).not_mem (c := '\r') (by decide)
  intro s member line here
  simp only [Features.pastedSetup, List.mem_cons, List.not_mem_nil, or_false] at member
  rcases member with rfl | rfl | rfl | rfl | rfl <;>
    rw [Stmt.print, List.mem_singleton] at here <;> rw [here]
  · exact ⟨by simpa [Expr.print, Config.features] using scaled c.maxSupply, rfl⟩
  · exact ⟨by simpa [Expr.print, Config.features] using number c.buyTax, rfl⟩
  · exact ⟨by simpa [Expr.print, Config.features] using number c.sellTax, rfl⟩
  · exact ⟨by simpa [Expr.print] using receiver, rfl⟩
  · exact ⟨by simpa [Expr.print, printArguments, commaList, sender, Config.features]
      using scaled c.initialSupply, rfl⟩

theorem still_body : ∀ line ∈ printBody c.features.constructor.body, Still line :=
  forall_mem_printBody (c.features.forall_constructorBody Features.still_ownLines
    (fun _ => of_decide_eq_true) (still_pastedSetup c))

theorem still_opening : Still c.features.contract.opening where
  withoutReturn := by
    have name : '\r' ∉ contractName c.symbol := (alphanumeric_contractName _).not_mem (by decide)
    have bases : '\r' ∉ commaList (c.features.bases.map Base.name) := by
      intro member
      rcases mem_intercalate member with between | ⟨t, inside, here⟩
      · revert between
        decide
      · obtain ⟨b, _, rfl⟩ := List.mem_map.mp inside
        revert here
        cases b <;> decide
    unfold Contract.opening
    simpa using ⟨name, bases⟩
  plain := rfl

theorem still_details : ∀ line ∈ c.details, Still line := by
  have number : ∀ n, '\r' ∉ Text.ofNat n := fun n => (alphanumeric_ofNat n).not_mem (by decide)
  have flag : ∀ b, '\r' ∉ Features.yesNo b := by decide
  have access : '\r' ∉ c.access.label := by cases c.access <;> decide
  have limit : '\r' ∉ limitLabel c.maxSupply := by
    unfold limitLabel
    split
    · exact number c.maxSupply
    · decide
  intro line member
  simp only [Config.details, List.mem_cons, List.not_mem_nil, or_false] at member
  rcases member with rfl | rfl | rfl | rfl | rfl | rfl | rfl | rfl
  · exact ⟨by simpa using number c.initialSupply, rfl⟩
  · exact ⟨by simpa using limit, rfl⟩
  · exact ⟨by simpa using flag c.mintable, rfl⟩
  · exact ⟨by simpa using flag c.burnable, rfl⟩
  · exact ⟨by simpa using flag c.pausable, rfl⟩
  · exact ⟨by simpa using number c.buyTax, rfl⟩
  · exact ⟨by simpa using number c.sellTax, rfl⟩
  · exact ⟨by simpa using access, rfl⟩

variable {c} (named : '\r' ∉ c.name) (marked : '\r' ∉ c.symbol)

include named marked

theorem still_constructor : ∀ line ∈ c.features.constructor.print, Still line := by
  rw [c.features.constructor_print]
  refine List.forall_mem_cons.mpr ⟨⟨?_, rfl⟩, List.forall_mem_append.mpr
    ⟨indents_still.forall_mem_indent (still_body c), List.forall_mem_singleton.mpr (by decide)⟩⟩
  have ending : '\r' ∉ c.features.constructorEnd := by
    unfold Features.constructorEnd
    cases c.features.isOwnable <;> decide
  unfold Features.constructorOpening
  simpa [ending] using ⟨named, marked⟩

theorem still_documentation : ∀ line ∈ c.features.documentation, Still line := by
  have title : '\r' ∉ " * @title ".toList ++ c.name := by simpa using named
  have symbolLine : '\r' ∉ " * - Symbol: ".toList ++ c.symbol := by simpa using marked
  rw [c.features.documentation_eq, c.remarks_features]
  refine List.forall_mem_cons.mpr ⟨by decide, List.forall_mem_append.mpr
    ⟨List.forall_mem_cons.mpr ⟨⟨title, rfl⟩, List.forall_mem_cons.mpr ⟨by decide,
      List.forall_mem_cons.mpr ⟨⟨symbolLine, rfl⟩, still_details c⟩⟩⟩,
    List.forall_mem_singleton.mpr (by decide)⟩⟩

/-- No line of a contract begins with `pragma` or holds a carriage return. -/
theorem still_contract : ∀ line ∈ c.features.contract.lines, Still line := by
  intro line member
  simp only [Contract.lines, List.mem_append, List.mem_cons, List.not_mem_nil, or_false] at member
  rcases member with described | rfl | inside | rfl
  · exact still_documentation named marked line described
  · exact still_opening c
  · exact @Indents.forall_mem_bodyLines _ indents_still c.features.contract
      c.features.still_state c.features.still_events (still_constructor named marked)
      c.features.still_functions line inside
  · decide

end Still

/-! ## Lines with single gaps -/

/-- Lines without neighbouring blank lines, of which neither the first nor the last is blank. -/
structure Block (lines : List Text) : Prop where
  gaps : SingleGaps lines
  opens : ∀ line ∈ lines.head?, isBlankLine line = false
  closes : ∀ line ∈ lines.getLast?, isBlankLine line = false

theorem block_nil : Block [] := ⟨.nil, by simp, by simp⟩

theorem block_singleton {line : Text} (solid : isBlankLine line = false) : Block [line] where
  gaps := .singleton line
  opens := by simpa using solid
  closes := by simpa using solid

theorem block_of_solid {lines : List Text} (solid : ∀ line ∈ lines, isBlankLine line = false) :
    Block lines where
  gaps := by
    refine List.Pairwise.isChain (List.pairwise_of_forall_mem_list fun a member _ _ => ?_)
    exact .inl (solid a member)
  opens line member := solid line (List.mem_of_mem_head? member)
  closes line member := solid line (List.mem_of_getLast? member)

theorem Block.append {lines more : List Text} (h : Block lines) (hmore : Block more) :
    Block (lines ++ more) where
  gaps := h.gaps.append hmore.gaps fun line member _ _ => .inl (h.closes line member)
  opens line member := by
    rw [List.head?_append, Option.mem_def, Option.or_eq_some_iff] at member
    rcases member with first | ⟨_, later⟩
    · exact h.opens line first
    · exact hmore.opens line later
  closes line member := by
    rw [List.getLast?_append, Option.mem_def, Option.or_eq_some_iff] at member
    rcases member with last | ⟨_, earlier⟩
    · exact hmore.closes line last
    · exact h.closes line earlier

/-- Two blocks with an empty line between them. -/
theorem Block.gap {lines more : List Text} (h : Block lines) (some_line : lines ≠ [])
    (hmore : Block more) (more_line : more ≠ []) : Block (lines ++ [] :: more) where
  gaps := by
    have behind : SingleGaps ([] :: more) :=
      List.IsChain.cons hmore.gaps fun line member => .inr (hmore.opens line member)
    exact h.gaps.append behind fun line member _ _ => .inl (h.closes line member)
  opens line member := by
    rw [List.head?_append_of_ne_nil _ some_line] at member
    exact h.opens line member
  closes line member := by
    rw [List.getLast?_append_of_ne_nil _ (by simp),
      List.getLast?_cons_of_ne_nil more_line] at member
    exact hmore.closes line member

theorem isBlankLine_indent (line : Text) :
    isBlankLine (if line = [] then [] else (List.replicate 1 step).flatten ++ line) =
      isBlankLine line := by
  split
  · next empty => rw [empty]
  · rfl

theorem Block.indent {lines : List Text} (h : Block lines) : Block (indent lines) where
  gaps := by
    rw [SingleGaps, Solidity.indent, indentBy, List.isChain_map]
    simp only [isBlankLine_indent]
    exact h.gaps
  opens := by
    simp only [Solidity.indent, indentBy, List.head?_map, Option.mem_def, Option.map_eq_some_iff]
    rintro _ ⟨line, member, rfl⟩
    rw [isBlankLine_indent]
    exact h.opens line member
  closes := by
    simp only [Solidity.indent, indentBy, List.getLast?_map, Option.mem_def,
      Option.map_eq_some_iff]
    rintro _ ⟨line, member, rfl⟩
    rw [isBlankLine_indent]
    exact h.closes line member

/-- A member and what follows it. -/
theorem Block.spaced {lines more : List Text} (h : Block lines) (hmore : Block more)
    (more_line : more ≠ []) : Block (spaced lines ++ more) := by
  rw [Solidity.spaced]
  split
  · exact hmore
  · next some_line =>
    rw [List.append_assoc]
    exact h.indent.gap (by simpa [Solidity.indent, indentBy] using some_line) hmore more_line

instance (lines : List Text) : Decidable (Block lines) :=
  decidable_of_iff (lines.IsChain _ ∧ _ ∧ _)
    ⟨fun h => ⟨h.1, h.2.1, h.2.2⟩, fun h => ⟨h.gaps, h.opens, h.closes⟩⟩

theorem Block.ite {lines : List Text} (h : Block lines) (p : Prop) [Decidable p] :
    Block (if p then lines else []) := by
  split
  · exact h
  · exact block_nil

/-! ## The parts of a contract -/

namespace Features

variable (f : Features)

theorem block_state : Block (f.state.map Declaration.print) := by
  have tax : Block (taxState.map Declaration.print) := by decide
  have own : ∀ d ∈ ownState, d ≠ .gap → Block [d.print] := by decide
  unfold state
  simp only [List.map_append, apply_ite (List.map Declaration.print), List.map_nil]
  refine ((((Block.ite ?_ _).append (Block.ite ?_ _)).append (Block.ite tax _)).append
    (Block.ite ?_ _)).append (Block.ite ?_ _)
  all_goals exact own _ (by simp [ownState]) (by simp)

theorem block_events : Block (f.events.map Event.print) := by
  have tax : Block (taxEvents.map Event.print) := by decide
  unfold events
  rw [apply_ite (List.map Event.print)]
  exact tax.ite _

theorem block_functions : ∀ g ∈ f.functions, Block g.print := by
  have own : (ownFunctions.all fun g => decide (Block g.print)) = true := by decide +kernel
  intro g member
  exact of_decide_eq_true (List.all_eq_true.mp own g (f.functions_own g member))

theorem block_grants : Block (printBody f.grants) := by
  have own : ∀ role ∈ [adminRole, minterRole, pauserRole], Block (printBody [grant role]) := by
    decide
  unfold grants
  simp only [apply_ite printBody, printBody_append]
  refine Block.ite (((own _ (by simp)).append ?_).append ?_) _
  · exact (own _ (by simp)).ite _
  · exact (own _ (by simp)).ite _

theorem block_taxSetup : Block (printBody f.taxSetup) := by
  have rates : Block (["buyTaxPercent = " ++ f.buyTax ++ ";"] ++
      (["sellTaxPercent = " ++ f.sellTax ++ ";"] ++
        ["taxReceiver = " ++ f.receiver.print ++ ";"])) :=
    (block_singleton rfl).append ((block_singleton rfl).append (block_singleton rfl))
  have exempt : Block (printBody (ownSetup.drop 5)) := by decide
  exact rates.gap (by simp) exempt (by decide)

theorem block_setup : Block (printBody f.setup) := by
  have limit : Block (printBody [.assign (.name "maxSupply") (scaled f.maxSupply)]) :=
    block_singleton rfl
  have mintable : Block (printBody [.assign (.name "mintable") (.name "true")]) :=
    block_singleton rfl
  unfold setup
  simp only [printBody_append, apply_ite printBody]
  exact ((f.block_grants.append (limit.ite _)).append (mintable.ite _)).append
    (f.block_taxSetup.ite _)

theorem block_constructor : Block f.constructor.print := by
  have opening : Block [f.constructorOpening] := block_singleton rfl
  have minting : Block (printBody [.run (.call "_mint" [sender, scaled f.initialSupply])]) :=
    block_singleton rfl
  have body : Block (printBody f.constructor.body) := by
    simp only [constructor]
    split
    · rw [printBody_append]
      cases given : f.setup with
      | nil => exact minting
      | cons s more =>
        have setup := f.block_setup
        rw [given] at setup
        have some_line : printBody (s :: more) ≠ [] := by
          simp [Solidity.printBody, s.print_ne_nil]
        show Block (printBody ((s :: more) ++ [.gap]) ++ _)
        rw [printBody_append, List.append_assoc]
        exact setup.gap some_line minting (by simp [Solidity.printBody, Stmt.print])
    · exact f.block_setup
  rw [f.constructor_print]
  exact opening.append (body.indent.append (by decide))

theorem block_functionLines {lines : List Text} (h : Block lines) (some_line : lines ≠ []) :
    Block (lines ++ f.functionLines) := by
  have blocks := f.block_functions
  unfold functionLines
  generalize f.functions = functions at blocks
  induction functions generalizing lines with
  | nil => simpa using h
  | cons g functions ih =>
    have printed : indent g.print ≠ [] := by
      simpa [Solidity.indent, indentBy] using g.print_ne_nil
    rw [List.flatMap_cons, ← List.append_assoc]
    exact ih (h.gap some_line (blocks g (.head _)).indent printed) (by simp)
      fun g member => blocks g (.tail _ member)

theorem block_documentation : Block f.documentation := by
  refine block_of_solid fun line member => ?_
  unfold documentation at member
  simp only [List.mem_cons, List.not_mem_nil, or_false] at member
  rcases member with rfl | rfl | rfl | rfl | rfl | rfl | rfl | rfl | rfl | rfl | rfl | rfl | rfl <;>
    rfl

/-- No two neighbouring lines of a contract are blank. -/
theorem block_contract : Block f.contract.lines := by
  have opening : Block [f.contract.opening] := block_singleton rfl
  have constructor : indent f.constructor.print ≠ [] := by
    simp [Constructor.print, Solidity.indent, indentBy]
  have members := f.block_functionLines f.block_constructor.indent constructor
  have some_line : indent f.constructor.print ++ f.functionLines ≠ [] := by simp [constructor]
  have events := f.block_events.spaced members some_line
  have state := f.block_state.spaced events (by simp [constructor])
  have closing : Block [closing] := by decide
  have closed := f.block_documentation.append (opening.append (state.append closing))
  rw [f.contract_lines, codeLines, stateLines]
  simpa only [List.append_assoc, List.cons_append, List.nil_append] using closed

end Features

/-! ## Flattening a generated source -/

/-- The lines of the license and the version pragma of a generated source. -/
def openingLines : List Text := ["// SPDX-License-Identifier: MIT", "pragma solidity ^0.8.20;"]

theorem Features.preambleLines_eq (f : Features) :
    f.unit.preambleLines = openingLines ++ [[]] := rfl

/-- The text of a contract from its header comment on. -/
def Features.contractText (f : Features) : Text := "/**" ++ f.behindOpening

theorem Features.contractText_eq (f : Features) : f.contractText = unlines f.contract.lines := by
  have header := f.source_header
  rw [f.source_text, ← f.contract_lines, unlines_append, unlines_cons, preface,
    List.append_assoc] at header
  exact (List.cons.inj (List.append_cancel_left header)).2.symm

/-- A generated source: the opening lines, the imports, and the contract. -/
theorem Features.source_opening (f : Features) : f.source.text = unlines openingLines ++
    (('\n' :: (unlines ((f.bases.map Base.path).map importLine) ++ ['\n'])) ++ f.contractText) := by
  rw [f.source_text, ← f.contract_lines, f.contractText_eq, headLines, f.preambleLines_eq]
  simp

/-- Whatever stands in the place of import lines, it stands before what follows them. -/
theorem expands_linePieces {lookup : Lookup} {seen met paths : List Text}
    {more : List (Piece Import.Directive)} {e : Expansion}
    (h : Expands lookup none seen (paths.map Import.linePiece ++ more) e met) :
    ∃ front later rest, Expands lookup none later more rest met ∧
      e.render = front ++ rest.render := by
  have behind : ∀ {before : Text} {e inner : Expansion}, e.render = before ++ inner.render →
      (∃ front later rest, Expands lookup none later more rest met ∧
        inner.render = front ++ rest.render) →
      ∃ front later rest, Expands lookup none later more rest met ∧
        e.render = front ++ rest.render := by
    rintro before e inner whole ⟨front, later, rest, expands, text⟩
    exact ⟨before ++ front, later, rest, expands, by rw [whole, text, List.append_assoc]⟩
  induction paths generalizing seen e with
  | nil => exact ⟨[], seen, e, h, rfl⟩
  | cons path paths ih =>
    cases h with
    | duplicate _ expands => exact @behind [] _ _ rfl (ih expands)
    | missing _ _ expands => exact behind rfl (ih expands)
    | file _ _ _ expands => exact behind rfl (ih expands)

section Accepted

variable {members : List (Text × Json)} {c : Config}
  (accepted : Config.ofMembers members = .ok c)

include accepted

theorem calm_contract : ∀ line ∈ c.features.contract.lines, Calm line := by
  have names := Config.ofMembers_names accepted
  have forbidden : isForbidden '\r' = true := rfl
  have named : '\r' ∉ c.name := fun member => by
    rw [names.nameAllowed _ member] at forbidden
    cases forbidden
  have marked : '\r' ∉ c.symbol := fun member => by
    rw [names.symbolAllowed _ member] at forbidden
    cases forbidden
  intro line member
  exact (still_contract named marked line member).calm
    ((Config.tame accepted).contract_harmless line member).single

/-- What is left of the opening lines and of the contract when the pieces of a source expand. -/
theorem render_of_expands (named : ';' ∉ c.name) (marked : ';' ∉ c.symbol) {lookup : Lookup}
    {seen met : List Text} {e : Expansion}
    (h : Expands lookup none seen (pieces Import.directive c.features.source.text) e met) :
    ∃ front, e.render = unlines openingLines ++ (front ++ '\n' :: c.features.contractText) := by
  have quiet : piecesFrom Import.directive 0 (some '\n') (unlines c.contractLines) =
      (unlines c.contractLines).map .char := by
    refine Text.piecesFrom_of_found_eq_nil ((Import.found_eq_nil_iff
      (Config.contractLines_harmless (Config.tame accepted))).mpr fun injected => ?_)
    obtain ⟨_, _, _, _, ⟨pasted, member, _, part, rest, _, split, _⟩, _⟩ := injected
    have semicolon : ';' ∈ pasted := by simp [split]
    simp only [List.mem_cons, List.not_mem_nil, or_false] at member
    rcases member with rfl | rfl
    · exact named semicolon
    · exact marked semicolon
  rw [c.pieces_source, quiet] at h
  obtain ⟨_, imports, opening, _⟩ := h.chars
  obtain ⟨front, _, _, contract, inlined⟩ := expands_linePieces imports
  rw [← List.append_nil (List.map _ _)] at contract
  obtain ⟨_, ended, own, _⟩ := contract.chars
  cases ended
  have preamble : unlines c.features.unit.preambleLines = unlines openingLines ++ ['\n'] := by
    rw [c.features.preambleLines_eq, unlines_append]
    rfl
  have contract : unlines c.contractLines = '\n' :: c.features.contractText := by
    rw [Config.contractLines, unlines_cons, c.features.contractText_eq]
    rfl
  refine ⟨'\n' :: front, ?_⟩
  rw [opening, inlined, own, preamble, contract]
  simp [Expansion.render]

end Accepted

/-- A flattening of the source of an accepted configuration without semicolons in its name and
its symbol begins with the license and the version pragma, and ends with the text of the contract
from its header comment on, which begins a line. -/
theorem flattenSource_contract {members : List (Text × Json)} {c : Config}
    (accepted : Config.ofMembers members = .ok c) (named : ';' ∉ c.name)
    (marked : ';' ∉ c.symbol) :
    ∃ s imports, generate c.request = .ok s ∧
      s.text = unlines openingLines ++ (imports ++ s.features.contractText) ∧
      ∀ (lookup : Lookup) (limit : Int) (session t : Session) (flat : Text),
        runOn (flattenSource lookup limit s.text) session = ⟨.ok flat, t⟩ →
        ∃ libraries, flat = unlines openingLines ++ (libraries ++ s.features.contractText) ∧
          atLineStart (charBefore (some '\n') libraries) = true := by
  refine ⟨c.features.source, _, c.generate_request, c.features.source_opening, ?_⟩
  intro lookup limit session t flat run
  obtain ⟨e, expands, rfl, _⟩ := Flatten.expands_of_flattenSource run
  obtain ⟨front, rendered⟩ := render_of_expands accepted named marked expands
  have first : Calm "// SPDX-License-Identifier: MIT" := ⟨by decide, by decide, fun _ => rfl⟩
  have second : Calm "pragma solidity ^0.8.20;" := ⟨by decide, by decide, fun _ => rfl⟩
  have calm := calm_contract accepted
  have gaps := c.features.block_contract.gaps
  obtain ⟨rest, text, above⟩ := Flatten.tidy_above first second rfl calm gaps rfl
    session.features front
  rw [← c.features.contractText_eq] at text above
  rw [rendered]
  show ∃ libraries, tidy _ (unlines [_, _] ++ _) = _ ∧ _
  rw [text]
  cases above with
  | here => exact ⟨[], rfl, rfl⟩
  | lines front =>
    refine ⟨front ++ ['\n'], ?_, by simp [atLineStart]⟩
    rw [List.append_assoc]
    rfl

/-! ## A source with ragged files -/

/-- Members of a token. -/
def unadornedMembers : List (Text × Json) := [
  ("name", .text "Tidy"), ("symbol", .text "TDY"), ("initialSupply", .int 1)]

/-- The configuration that they are accepted as. -/
def unadornedConfig : Config := plainConfig "Tidy" "TDY"

/-- Files that end in a pragma without its end and in blank lines.  The other files of the bases
are not there. -/
def raggedFiles : Assoc Text := [
  (Base.erc20.path, "pragma abicoder v2;\ncontract ERC20 \x7b\x7d\n\n\n\n\n\n  pragma"),
  (Base.ownable.path, "contract Ownable \x7b\x7d\npragma experimental\n\n\n\n")]

/-- The source of the token is flattened with these files, and the contract stays. -/
theorem flattenSource_contract_raggedFiles :
    Config.ofMembers unadornedMembers = .ok unadornedConfig ∧
      ∃ s flat t libraries, generate unadornedConfig.request = .ok s ∧
        runOn (flattenSource (Assoc.get? raggedFiles) 20 s.text) .empty = ⟨.ok flat, t⟩ ∧
        flat = unlines openingLines ++ (libraries ++ s.features.contractText) := by
  have accepted : Config.ofMembers unadornedMembers = .ok unadornedConfig := rfl
  refine ⟨accepted, ?_⟩
  obtain ⟨s, _, generated, _, keeps⟩ := flattenSource_contract accepted (by decide) (by decide)
  obtain ⟨flat, t, run⟩ :=
    @Flatten.flattenSource_of_length_le raggedFiles 20 (by decide) s.text .empty
  obtain ⟨libraries, text, _⟩ := keeps _ _ _ _ _ run
  exact ⟨s, flat, t, libraries, generated, run, text⟩

end Token

end TokenForge

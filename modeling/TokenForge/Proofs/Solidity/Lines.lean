import TokenForge.Proofs.Text.Lines
import TokenForge.Solidity.Printer

/-!
# Printed sources by lines

A source unit prints as lines each of which ends in a line feed
(`SourceUnit.print_eq`).  A property of lines that indentation keeps holds of the lines
of a contract if it holds of those of its parts (`Indents.forall_mem_bodyLines`), so
that only the unindented lines of the parts are looked at.
-/

namespace TokenForge

namespace Solidity

open Text

/-! ## Blocks of lines -/

/-- Lines that are joined and ended by line feeds. -/
theorem joinLines_lineFeed {lines : List Text} (some_line : lines ≠ []) :
    joinLines lines ++ ['\n'] = unlines lines := by
  induction lines with
  | nil => exact absurd rfl some_line
  | cons line lines ih =>
    cases lines with
    | nil => simp [joinLines, List.intercalate]
    | cons next lines =>
      have rest := ih (by simp)
      rw [joinLines, List.intercalate_cons_cons, List.append_assoc, ← joinLines, rest,
        unlines_cons line, List.append_assoc]
      rfl

/-- Blocks that are joined by empty lines. -/
theorem intercalate_joinLines {blocks : List (List Text)} (some_block : blocks ≠ [])
    (solid : ∀ block ∈ blocks, block ≠ []) :
    List.intercalate "\n\n" (blocks.map joinLines) ++ ['\n'] =
      unlines (List.intercalate [[]] blocks) := by
  induction blocks with
  | nil => exact absurd rfl some_block
  | cons block blocks ih =>
    have first := joinLines_lineFeed (solid block (.head _))
    cases blocks with
    | nil => simpa [List.intercalate] using first
    | cons next blocks =>
      have rest := ih (by simp) fun block member => solid block (.tail _ member)
      have cut : ∀ s : Text, joinLines block ++ ("\n\n".toList ++ s) =
          (joinLines block ++ ['\n']) ++ '\n' :: s := fun s => by simp
      rw [List.map_cons, List.map_cons, List.intercalate_cons_cons, List.append_assoc,
        List.append_assoc, ← List.map_cons, cut, rest, first, List.intercalate_cons_cons,
        unlines_append, unlines_append]
      simp

/-! ## The lines of a source unit -/

/-- The lines of the body of a contract. -/
def Contract.bodyLines (c : Contract) : List Text := List.intercalate [[]] (c.members.map indent)

/-- The line that opens a contract. -/
def Contract.opening (c : Contract) : Text :=
  "contract " ++ c.name ++ " is " ++ commaList c.bases ++ " \x7b"

/-- The lines of a contract. -/
def Contract.lines (c : Contract) : List Text :=
  c.documentation ++ (c.opening :: (c.bodyLines ++ [closing]))

/-- The line of an import. -/
def importLine (path : Text) : Text := "import \"" ++ path ++ "\";"

/-- The lines before the imports, the last of which is empty. -/
def SourceUnit.preambleLines (u : SourceUnit) : List Text :=
  ["// SPDX-License-Identifier: " ++ u.license, "pragma solidity " ++ u.versions ++ ";", []]

/-- Lists that are joined with a list between them: the first, and the others each behind it. -/
theorem intercalate_cons {α : Type} (sep part : List α) (parts : List (List α)) :
    List.intercalate sep (part :: parts) = part ++ parts.flatMap (sep ++ ·) := by
  induction parts generalizing part with
  | nil => simp
  | cons next parts ih =>
    rw [List.intercalate_cons_cons, ih, List.flatMap_cons, List.append_assoc]
    simp

/-- The lines of a member that others follow, with the empty line behind it; nothing, if it has
no lines. -/
def spaced (lines : List Text) : List Text := if lines = [] then [] else indent lines ++ [[]]

theorem Function.print_ne_nil (f : Function) : f.print ≠ [] := by simp [Function.print]

/-- The body of a contract: state and events, if there are any, the constructor, and the
functions, each behind an empty line. -/
theorem Contract.bodyLines_eq (c : Contract) :
    c.bodyLines = spaced (c.state.map Declaration.print) ++ spaced (c.events.map Event.print) ++
      indent c.constructor.print ++ c.functions.flatMap fun f => [] :: indent f.print := by
  have functions : (c.functions.map Function.print).filter (· ≠ []) =
      c.functions.map Function.print := by
    refine List.filter_eq_self.mpr fun block member => ?_
    obtain ⟨f, _, rfl⟩ := List.mem_map.mp member
    simpa using f.print_ne_nil
  have constructor : c.constructor.print ≠ [] := by simp [Constructor.print]
  rw [Contract.bodyLines, Contract.members, List.filter_append, functions]
  -- The constructor is always there, so state and events always have an empty line behind them.
  by_cases state : c.state.map Declaration.print = [] <;>
    by_cases events : c.events.map Event.print = [] <;>
    simp [state, events, constructor, spaced, intercalate_cons, List.flatMap_map]

theorem Contract.printBody_lineFeed (c : Contract) :
    c.printBody ++ ['\n'] = unlines c.bodyLines := by
  have some_block : c.members.map indent ≠ [] := by
    have member : c.constructor.print ∈ c.members := by
      simp [Contract.members, Constructor.print]
    intro none
    rw [List.map_eq_nil_iff.mp none] at member
    cases member
  have solid : ∀ block ∈ c.members.map indent, block ≠ [] := by
    intro block member
    obtain ⟨lines, inside, rfl⟩ := List.mem_map.mp member
    have := (List.mem_filter.mp inside).2
    simpa [indent, indentBy] using this
  have blocks := intercalate_joinLines some_block solid
  rw [List.map_map] at blocks
  exact blocks

theorem Contract.print_lineFeed (c : Contract) (documented : c.documentation ≠ []) :
    c.print ++ ['\n'] = unlines c.lines := by
  rw [Contract.lines, unlines_append, unlines_cons, unlines_append, ← joinLines_lineFeed documented,
    ← c.printBody_lineFeed]
  unfold Contract.print Contract.opening
  simp [closing]

theorem SourceUnit.printPreamble_lineFeed (u : SourceUnit) :
    u.printPreamble ++ "\n\n" = unlines u.preambleLines := by
  unfold SourceUnit.printPreamble SourceUnit.preambleLines
  simp only [unlines_cons, unlines_nil, List.append_assoc, List.nil_append]
  rfl

/-- A source unit prints as its lines. -/
theorem SourceUnit.print_eq (u : SourceUnit) (imports : u.imports ≠ [])
    (documented : u.contract.documentation ≠ []) :
    u.print = unlines (u.preambleLines ++ u.imports.map importLine) ++
      unlines ([] :: u.contract.lines) := by
  have parts : u.print = (u.printPreamble ++ "\n\n") ++ ((joinLines (u.imports.map importLine) ++
      ['\n']) ++ '\n' :: (u.contract.print ++ ['\n'])) := by
    simp only [SourceUnit.print, List.intercalate_cons_cons, List.intercalate_singleton,
      List.append_assoc]
    rfl
  rw [parts, u.printPreamble_lineFeed, u.contract.print_lineFeed documented,
    joinLines_lineFeed (by simpa using imports), unlines_append, unlines_cons, List.append_assoc]
  rfl

/-! ## Statements -/

theorem printBody_append (body more : List Stmt) :
    printBody (body ++ more) = printBody body ++ printBody more := by
  induction body with
  | nil => rfl
  | cons s body ih => rw [List.cons_append, printBody, printBody, ih, List.append_assoc]

theorem Stmt.print_ne_nil (s : Stmt) : s.print ≠ [] := by
  cases s <;> simp [Stmt.print]

/-! ## Properties of lines -/

/-- A property of lines that empty lines have and indentation keeps. -/
structure Indents (p : Text → Prop) : Prop where
  empty : p []
  indent : ∀ {line}, p line → p (step ++ line)

section Properties

variable {p : Text → Prop}

theorem Indents.forall_mem_indent (h : Indents p) {lines : List Text}
    (inside : ∀ line ∈ lines, p line) : ∀ line ∈ Solidity.indent lines, p line := by
  intro line member
  obtain ⟨inner, here, rfl⟩ := List.mem_map.mp member
  split
  · exact h.empty
  · simpa using h.indent (inside inner here)

theorem forall_mem_printBody {body : List Stmt} (inside : ∀ s ∈ body, ∀ line ∈ s.print, p line) :
    ∀ line ∈ printBody body, p line := by
  induction body with
  | nil => simp [printBody]
  | cons s body ih =>
    intro line member
    rw [printBody] at member
    rcases List.mem_append.mp member with here | later
    · exact inside s (.head _) line here
    · exact ih (fun s member => inside s (.tail _ member)) line later

theorem Indents.forall_mem_spaced (h : Indents p) {lines : List Text}
    (inside : ∀ line ∈ lines, p line) : ∀ line ∈ spaced lines, p line := by
  unfold spaced
  split
  · simp
  · exact List.forall_mem_append.mpr
      ⟨h.forall_mem_indent inside, List.forall_mem_singleton.mpr h.empty⟩

theorem Indents.forall_mem_functions (h : Indents p) {functions : List Function}
    (inside : ∀ f ∈ functions, ∀ line ∈ f.print, p line) :
    ∀ line ∈ functions.flatMap fun f => [] :: Solidity.indent f.print, p line := by
  intro line member
  obtain ⟨f, known, here⟩ := List.mem_flatMap.mp member
  rcases List.mem_cons.mp here with rfl | here
  · exact h.empty
  · exact h.forall_mem_indent (inside f known) line here

/-- The lines in the body of a contract. -/
theorem Indents.forall_mem_bodyLines (h : Indents p) {c : Contract}
    (state : ∀ d ∈ c.state, p d.print) (events : ∀ e ∈ c.events, p e.print)
    (constructor : ∀ line ∈ c.constructor.print, p line)
    (functions : ∀ f ∈ c.functions, ∀ line ∈ f.print, p line) :
    ∀ line ∈ c.bodyLines, p line := by
  rw [c.bodyLines_eq]
  simp only [List.forall_mem_append]
  exact ⟨⟨⟨h.forall_mem_spaced (List.forall_mem_map.mpr state),
    h.forall_mem_spaced (List.forall_mem_map.mpr events)⟩, h.forall_mem_indent constructor⟩,
    h.forall_mem_functions functions⟩

end Properties

end Solidity

end TokenForge

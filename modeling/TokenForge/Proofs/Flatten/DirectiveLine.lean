import TokenForge.Proofs.Import.Written

/-!
# Directives by lines

The recogniser of directives treats a document line by line: it covers a directive line
with its line feed and finds nothing in any other line (`directive_reads`).  In a line
without the word `import` there is nothing to find at any position.
-/

namespace TokenForge

namespace Flatten

open Text

namespace DirectiveLine

/-! ## The text of a directive -/

/-- The white space of a line as white space. -/
def blanks (gap : Gap) : Import.Blanks := ⟨gap.1, fun c member => (gap.2 c member).1⟩

/-- The white space of a line, of which there is some, as white space. -/
def blanks1 (gap : Gap1) : Import.Blanks1 := ⟨blanks gap.1, gap.2⟩

/-- The names that a directive imports, not only on one line. -/
def selection : Names → Import.Selection
  | .symbols inside => .symbols ⟨inside.1, fun member => (inside.2 _ member).1 rfl⟩
  | .star afterStar afterAs name => .star (blanks1 afterStar) (blanks1 afterAs) name
  | .word name => .word name

theorem selection_text (names : Names) : (selection names).text = names.text := by
  cases names <;> rfl

/-- A directive on a line as a directive anywhere. -/
def written (d : DirectiveLine) : Import.Written where
  indent := d.indent
  gap := blanks1 d.gap
  selection := d.clause.map fun (names, before, after) =>
    (selection names, blanks1 before, blanks1 after)
  opening := d.opening
  path := ⟨d.path.1, d.path.2.1, fun c member => (d.path.2.2 c member).1⟩
  closing := d.closing
  alias? := d.alias?.map fun (before, after, name) => (blanks1 before, blanks1 after, name)
  beforeEnd := blanks d.beforeEnd

/-- A directive up to its semicolon. -/
def statement (d : DirectiveLine) : Text :=
  d.indent.1 ++ ("import" ++ (d.gap.1.1 ++ (d.clauseText ++
    (d.opening.1 :: (d.path.1 ++ (d.closing.1 :: (d.aliasText ++ (d.beforeEnd.1 ++ [';']))))))))

theorem written_text (d : DirectiveLine) : d.written.text = d.statement := by
  have clause : d.written.clauseText = d.clauseText := by
    unfold Import.Written.clauseText clauseText written
    rcases d.clause with _ | ⟨names, before, after⟩
    · rfl
    · show (selection names).text ++ _ = names.text ++ _
      rw [selection_text]
      rfl
  have alias_ : d.written.aliasText = d.aliasText := by
    unfold Import.Written.aliasText aliasText written
    cases d.alias? <;> rfl
  rw [Import.Written.text, clause, alias_]
  rfl

theorem dropBlanks1?_gap (gap : Gap1) {s : Text} (stop : Stops isBlank s) :
    dropBlanks1? (gap.1.1 ++ s) = some s := Import.dropBlanks1?_blanks (blanks1 gap) stop

theorem afterLineEnd_trailing (trailing : Spaces) {tail : Text} (h : AtBreak tail) :
    Import.afterLineEnd (trailing.1 ++ tail) = tail.drop 1 := by
  have read := dropSpaces_append trailing.2 (h.stops (p := isSpaceOrTab) (by decide))
  rw [Import.afterLineEnd, read]
  cases tail with
  | nil => rfl
  | cons c tail =>
    have : c = '\n' := h c (by simp)
    subst this
    rfl

theorem text_eq (d : DirectiveLine) : d.text = d.statement ++ d.trailing.1 := by
  simp [text, statement, ending]

end DirectiveLine

/-- A directive is found where one may start, whatever follows it. -/
theorem directive_statement (d : DirectiveLine) {before : Option Char}
    (start : Import.mayStart before = true) (s : Text) :
    Import.directive before (d.statement ++ s) = some (⟨d.path.1⟩, Import.afterLineEnd s) := by
  rw [← DirectiveLine.written_text]
  exact Import.directive_written d.written start s

/-- A directive line is covered with its line feed. -/
theorem directive_takes (d : DirectiveLine) {before : Option Char} {tail : Text}
    (start : atLineStart before = true) (h : AtBreak tail) :
    Import.directive before (d.text ++ tail) = some (⟨d.path.1⟩, tail.drop 1) := by
  rw [DirectiveLine.text_eq, List.append_assoc,
    directive_statement d (Import.mayStart_of_atLineStart start),
    DirectiveLine.afterLineEnd_trailing d.trailing h]

/-- A word at the beginning of a line, after spaces and tabs, is a part of the line. -/
theorem isInfix_of_after?_dropSpaces {word part tail rest : Text} (single : '\n' ∉ word)
    (h : after? word (dropSpaces (part ++ tail)) = some rest) (break_ : AtBreak tail) :
    word <:+: part := by
  rw [dropSpaces, dropWhile_append_of_atBreak (by decide) break_] at h
  exact (isPrefix_of_after? single h break_).isInfix.trans (List.dropWhile_suffix _).isInfix

/-- Where `import` does not occur before the line end, no directive is found. -/
theorem directive_eq_none {before : Option Char} {part tail : Text}
    (without : Without "import" part) (break_ : AtBreak tail) :
    Import.directive before (part ++ tail) = none := by
  unfold Import.directive
  split
  · cases read : after? "import" (dropSpaces (part ++ tail)) with
    | none => rfl
    | some rest => exact absurd (isInfix_of_after?_dropSpaces (by decide) read break_) without
  · rfl

/-- A path that can stand between quotes on one line. -/
abbrev QuotablePath :=
  {s : Text // s ≠ [] ∧ ∀ c ∈ s, Import.isQuote c = false ∧ c ≠ '\n' ∧ c ≠ '\r'}

/-- A directive for a path on a line of its own. -/
def plainDirective (path : QuotablePath) : DirectiveLine where
  indent := noSpaces
  gap := ⟨oneSpace, by decide⟩
  clause := none
  opening := ⟨'"', by decide⟩
  path := path
  closing := ⟨'"', by decide⟩
  alias? := none
  beforeEnd := ⟨[], by simp⟩
  trailing := noSpaces

theorem Line.withoutImport {l : Line} (h : l.directive? = none) : Without "import" l.text := by
  cases l with
  | directive d => cases h
  | license l => exact l.withoutImport
  | version v => exact v.withoutImport
  | feature f => exact f.withoutImport
  | other o => exact o.withoutImport

/-- What stands behind a line begins with a line end. -/
theorem atBreak_of_tail {α : Type} {line : α → Text} {tail : Text} (h : Page.Tail line tail) :
    AtBreak tail := by
  cases h with
  | last => exact atBreak_nil
  | more page => exact atBreak_cons _

/-- The recogniser of directives treats documents line by line. -/
theorem directive_reads : Reads Import.directive Line.text Line.directive? where
  takes {l a before tail} kind start follows := by
    cases l with
    | directive d =>
      cases kind
      exact directive_takes d start (atBreak_of_tail follows)
    | _ => cases kind
  passes {l before read left tail} kind split start follows := by
    refine directive_eq_none ?_ (atBreak_of_tail follows)
    intro inside
    refine Line.withoutImport kind (inside.trans ?_)
    rw [split]
    exact (List.suffix_append _ _).isInfix
  nonempty {l a} kind := by
    cases l with
    | directive d => simp [Line.text, DirectiveLine.text]
    | _ => cases kind

end Flatten

end TokenForge

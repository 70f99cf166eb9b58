import TokenForge.Flatten.Preamble
import TokenForge.Import.Directive
import TokenForge.Proofs.Text.Lines
import TokenForge.Proofs.Text.Reading

/-!
# Documents by lines

A source is *line-structured* if every line of it is of one of five kinds:

* an import directive in one of the recognised forms, on one line, with spaces and tabs
  around it;
* a license line without the word `import`;
* a version pragma on one line, with nothing but spaces and tabs behind its semicolon and
  without the word `import`;
* a feature pragma of the same shape;
* any other line without the words `import`, `pragma` and `SPDX-License-Identifier` and
  without a carriage return.

The lines carry what makes them well-formed, so that a `Document` is a page of such lines,
and the line-structured texts are the texts of documents (`exists_document_iff`).
-/

namespace TokenForge

namespace Flatten

/-! ## Parts of a line -/

/-- Spaces and tabs. -/
abbrev Spaces := {s : Text // ∀ c ∈ s, isSpaceOrTab c = true}

/-- White space without line feeds. -/
abbrev Gap := {s : Text // ∀ c ∈ s, isBlank c = true ∧ c ≠ '\n'}

/-- White space without line feeds, of which there is some. -/
abbrev Gap1 := {s : Gap // s.1 ≠ []}

/-- No space. -/
def noSpaces : Spaces := ⟨[], by simp⟩

/-- One space. -/
def oneSpace : Gap := ⟨[' '], by decide⟩

/-- An identifier. -/
abbrev Identifier := {s : Text // s ≠ [] ∧ ∀ c ∈ s, isWordChar c = true}

/-- A quote of either kind. -/
abbrev Quote := {c : Char // Import.isQuote c = true}

/-- Text without line feeds and semicolons. -/
abbrev Statement := {s : Text // ∀ c ∈ s, c ≠ ';' ∧ c ≠ '\n'}

/-- A text that does not hold a word. -/
abbrev Without (word s : Text) : Prop := ¬ word <:+: s

/-! ## Import directives -/

/-- The names that a directive imports. -/
inductive Names where
  /-- Symbols in braces. -/
  | symbols (inside : {s : Text // ∀ c ∈ s, c ≠ '}' ∧ c ≠ '\n'})
  /-- Everything under a name. -/
  | star (afterStar afterAs : Gap1) (name : Identifier)
  | word (name : Identifier)

/-- The text of names. -/
def Names.text : Names → Text
  | .symbols inside => '{' :: (inside.1 ++ ['}'])
  | .star afterStar afterAs name => '*' :: (afterStar.1.1 ++ ("as" ++ (afterAs.1.1 ++ name.1)))
  | .word name => name.1

/-- An import directive on a line of its own. -/
structure DirectiveLine where
  /-- What stands before the directive. -/
  indent : Spaces
  /-- What follows `import`. -/
  gap : Gap1
  /-- The names before the path with the white space before and after `from`. -/
  clause : Option (Names × Gap1 × Gap1)
  opening : Quote
  path : {s : Text // s ≠ [] ∧ ∀ c ∈ s, Import.isQuote c = false ∧ c ≠ '\n' ∧ c ≠ '\r'}
  closing : Quote
  /-- The name for the whole file with the white space before and after `as`. -/
  alias? : Option (Gap1 × Gap1 × Identifier)
  /-- What stands before the semicolon. -/
  beforeEnd : Gap
  /-- What stands behind the semicolon. -/
  trailing : Spaces

namespace DirectiveLine

/-- The text of the names and `from`. -/
def clauseText (d : DirectiveLine) : Text :=
  match d.clause with
  | none => []
  | some (names, before, after) => names.text ++ (before.1.1 ++ ("from" ++ after.1.1))

/-- The text of `as` and the name. -/
def aliasText (d : DirectiveLine) : Text :=
  match d.alias? with
  | none => []
  | some (before, after, name) => before.1.1 ++ ("as" ++ (after.1.1 ++ name.1))

/-- The text behind the path. -/
def ending (d : DirectiveLine) : Text :=
  d.aliasText ++ (d.beforeEnd.1 ++ (";" ++ d.trailing.1))

/-- The text of a directive. -/
def text (d : DirectiveLine) : Text :=
  d.indent.1 ++ ("import" ++ (d.gap.1.1 ++ (d.clauseText ++
    (d.opening.1 :: (d.path.1 ++ (d.closing.1 :: d.ending))))))

end DirectiveLine

/-! ## Preamble lines -/

/-- The text of a license line. -/
def licenseText (indent : Spaces) (gap : Gap) (rest : Text) : Text :=
  indent.1 ++ ("//" ++ (gap.1 ++ ("SPDX-License-Identifier:" ++ rest)))

/-- A license line. -/
structure LicenseLine where
  /-- What stands before the comment. -/
  indent : Spaces
  /-- What follows the slashes. -/
  gap : Gap
  /-- What follows the colon. -/
  rest : {s : Text // '\n' ∉ s}
  withoutImport : Without "import" (licenseText indent gap rest.1)

/-- The text of a version pragma. -/
def versionText (indent : Spaces) (gap : Gap1) (body : Statement) (trailing : Spaces) : Text :=
  indent.1 ++ ("pragma" ++ (gap.1.1 ++ ("solidity" ++ (body.1 ++ (";" ++ trailing.1)))))

/-- A version pragma on a line of its own. -/
structure VersionLine where
  indent : Spaces
  gap : Gap1
  /-- What follows `solidity`: a blank and something more. -/
  body : Statement
  startsBlank : ∃ c d s, body.1 = c :: d :: s ∧ isBlank c = true
  trailing : Spaces
  withoutImport : Without "import" (versionText indent gap body trailing)

/-- The text of `experimental` with what follows it, if the word is there. -/
def experimentalText : Option Gap1 → Text
  | none => []
  | some gap => "experimental" ++ gap.1.1

@[simp]
theorem experimentalText_none : experimentalText none = [] := rfl

@[simp]
theorem experimentalText_some (gap : Gap1) :
    experimentalText (some gap) = "experimental" ++ gap.1.1 := rfl

/-- The text of a quote, if there is one. -/
def quoteText : Option Quote → Text
  | none => []
  | some quote => [quote.1]

/-- The text of a feature pragma. -/
def featureText (indent : Spaces) (gap : Gap1) (experimental : Option Gap1) (quote : Option Quote)
    (feature : Preamble.Feature) (body : Statement) (trailing : Spaces) : Text :=
  indent.1 ++ ("pragma" ++ (gap.1.1 ++ (experimentalText experimental ++ (quoteText quote ++
    (feature.name ++ (body.1 ++ (";" ++ trailing.1)))))))

/-- A feature pragma on a line of its own. -/
structure FeatureLine where
  indent : Spaces
  gap : Gap1
  /-- What follows `experimental`, if the word is there. -/
  experimental : Option Gap1
  quote : Option Quote
  feature : Preamble.Feature
  /-- What follows the feature, which does not go on as a word. -/
  body : Statement
  wordEnds : Text.Stops isWordChar body.1
  trailing : Spaces
  withoutImport :
    Without "import" (featureText indent gap experimental quote feature body trailing)

/-- Any other line. -/
structure OtherLine where
  text : Text
  single : '\n' ∉ text
  withoutReturn : '\r' ∉ text
  withoutImport : Without "import" text
  withoutPragma : Without "pragma" text
  withoutLicense : Without "SPDX-License-Identifier" text

/-! ## Lines and documents -/

/-- A line of a line-structured source. -/
inductive Line where
  | directive (d : DirectiveLine)
  | license (l : LicenseLine)
  | version (v : VersionLine)
  | feature (f : FeatureLine)
  | other (o : OtherLine)

namespace Line

/-- The text of a line. -/
def text : Line → Text
  | directive d => d.text
  | license l => licenseText l.indent l.gap l.rest.1
  | version v => versionText v.indent v.gap v.body v.trailing
  | feature f => featureText f.indent f.gap f.experimental f.quote f.feature f.body f.trailing
  | other o => o.text

/-- What the directive of a line is. -/
def directive? : Line → Option Import.Directive
  | directive d => some ⟨d.path.1⟩
  | _ => none

end Line

/-- A line-structured source. -/
abbrev Document := Page Line

/-- Every line of a text is of one of the kinds. -/
def LineStructured (s : Text) : Prop := ∀ line ∈ Text.splitOn '\n' s, ∃ l : Line, l.text = line

namespace Line

theorem indent_single (indent : Spaces) : '\n' ∉ indent.1 := by
  intro member
  exact absurd (indent.2 _ member) (by decide)

theorem gap_single (gap : Gap) : '\n' ∉ gap.1 := fun member => (gap.2 _ member).2 rfl

theorem identifier_single (name : Identifier) : '\n' ∉ name.1 := by
  intro member
  exact absurd (name.2.2 _ member) (by decide)

theorem quote_single (quote : Quote) : quote.1 ≠ '\n' := by
  intro same
  exact absurd (same ▸ quote.2) (by decide)

theorem statement_single (body : Statement) : '\n' ∉ body.1 := fun member => (body.2 _ member).2 rfl

theorem directive_single (d : DirectiveLine) : '\n' ∉ d.text := by
  have clause : '\n' ∉ d.clauseText := by
    unfold DirectiveLine.clauseText
    split
    · simp
    · next names before after _ =>
      have inNames : '\n' ∉ names.text := by
        cases names with
        | symbols inside =>
          have := fun member => (inside.2 '\n' member).2 rfl
          simpa [Names.text] using this
        | star afterStar afterAs name =>
          simp [Names.text, gap_single, identifier_single]
        | word name => exact identifier_single name
      simp [inNames, gap_single]
  have alias_ : '\n' ∉ d.aliasText := by
    unfold DirectiveLine.aliasText
    split
    · simp
    · simp [gap_single, identifier_single]
  have path : '\n' ∉ d.path.1 := fun member => (d.path.2.2 _ member).2.1 rfl
  simp [DirectiveLine.text, DirectiveLine.ending, indent_single, gap_single, clause, alias_, path,
    (quote_single _).symm]

theorem name_single (feature : Preamble.Feature) : '\n' ∉ feature.name := by
  cases feature <;> decide

theorem experimentalText_single (experimental : Option Gap1) :
    '\n' ∉ experimentalText experimental := by
  cases experimental with
  | none => simp
  | some gap => simp [gap_single]

theorem quoteText_single (quote : Option Quote) : '\n' ∉ quoteText quote := by
  cases quote with
  | none => simp [quoteText]
  | some quote => simp [quoteText, (quote_single quote).symm]

/-- A line holds no line feed. -/
theorem text_single (l : Line) : '\n' ∉ l.text := by
  cases l with
  | directive d => exact directive_single d
  | license l => simp [text, licenseText, indent_single, gap_single, l.rest.2]
  | version v => simp [text, versionText, indent_single, gap_single, statement_single]
  | feature f =>
    simp [text, featureText, indent_single, gap_single, statement_single, name_single,
      experimentalText_single, quoteText_single]
  | other o => exact o.single

end Line

/-- The line-structured texts are the texts of documents. -/
theorem exists_document_iff (s : Text) :
    (∃ document : Document, document.text Line.text = s) ↔ LineStructured s := by
  constructor
  · rintro ⟨document, rfl⟩ line member
    rw [Page.splitOn_text Line.text_single] at member
    obtain ⟨l, _, rfl⟩ := List.mem_map.mp member
    exact ⟨l, rfl⟩
  · exact Page.exists_text_eq

end Flatten

end TokenForge

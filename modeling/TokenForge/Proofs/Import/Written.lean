import TokenForge.Proofs.Flatten.Document

/-!
# Written directives

A directive as it stands in a text, up to its semicolon: in any of the recognised forms,
with quotes of either kind and any white space, line breaks included, between its words.

Wherever a directive may start, a written one is found with its path, whatever follows it
(`directive_written`).
-/

namespace TokenForge

namespace Import

open Text
open Flatten (Spaces Identifier Quote)

/-- White space. -/
abbrev Blanks := {s : Text // ∀ c ∈ s, isBlank c = true}

/-- White space, of which there is some. -/
abbrev Blanks1 := {s : Blanks // s.1 ≠ []}

/-- What a directive imports of its file, if it says so before the path. -/
inductive Selection where
  /-- Symbols in braces. -/
  | symbols (inside : {s : Text // '}' ∉ s})
  /-- Everything under a name. -/
  | star (afterStar afterAs : Blanks1) (name : Identifier)
  | word (name : Identifier)

/-- The text of a selection. -/
def Selection.text : Selection → Text
  | .symbols inside => '{' :: (inside.1 ++ ['}'])
  | .star afterStar afterAs name => '*' :: (afterStar.1.1 ++ ("as" ++ (afterAs.1.1 ++ name.1)))
  | .word name => name.1

/-- A directive as it is written. -/
structure Written where
  /-- What stands before the directive. -/
  indent : Spaces
  /-- What follows `import`. -/
  gap : Blanks1
  /-- The selection with the white space before and after `from`. -/
  selection : Option (Selection × Blanks1 × Blanks1)
  opening : Quote
  path : {s : Text // s ≠ [] ∧ ∀ c ∈ s, isQuote c = false}
  closing : Quote
  /-- The name for the whole file with the white space before and after `as`. -/
  alias? : Option (Blanks1 × Blanks1 × Identifier)
  /-- What stands before the semicolon. -/
  beforeEnd : Blanks

namespace Written

/-- The text of the selection and `from`. -/
def clauseText (d : Written) : Text :=
  match d.selection with
  | none => []
  | some (selection, before, after) => selection.text ++ (before.1.1 ++ ("from" ++ after.1.1))

/-- The text of `as` and the name. -/
def aliasText (d : Written) : Text :=
  match d.alias? with
  | none => []
  | some (before, after, name) => before.1.1 ++ ("as" ++ (after.1.1 ++ name.1))

/-- The text of a directive up to its semicolon. -/
def text (d : Written) : Text :=
  d.indent.1 ++ ("import" ++ (d.gap.1.1 ++ (d.clauseText ++
    (d.opening.1 :: (d.path.1 ++ (d.closing.1 :: (d.aliasText ++ (d.beforeEnd.1 ++ [';']))))))))

/-- What is found of a directive. -/
def directive (d : Written) : Directive := ⟨d.path.1⟩

end Written

/-! ## Quotes, white space and words -/

theorem isQuote_eq_true {c : Char} (h : isQuote c = true) : c = '"' ∨ c = '\'' := by
  simpa [isQuote] using h

theorem isBlank_of_isQuote {c : Char} (h : isQuote c = true) : isBlank c = false := by
  rcases isQuote_eq_true h with rfl | rfl <;> decide

theorem isBlank_of_isWordChar {c : Char} (h : isWordChar c = true) : isBlank c = false := by
  cases blank : isBlank c with
  | false => rfl
  | true =>
    rw [isWordChar_of_isBlank blank] at h
    cases h

/-- White space ends a word. -/
theorem blanks_stops (blanks : Blanks1) (s : Text) : Stops isWordChar (blanks.1.1 ++ s) := by
  obtain ⟨⟨part, blank⟩, some_text⟩ := blanks
  cases part with
  | nil => exact absurd rfl some_text
  | cons c part => exact stops_cons.mpr (isWordChar_of_isBlank (blank c (.head _)))

theorem identifier_stops (name : Identifier) (s : Text) : Stops isBlank (name.1 ++ s) := by
  obtain ⟨letters, some_text, inside⟩ := name
  cases letters with
  | nil => exact absurd rfl some_text
  | cons c letters => exact stops_cons.mpr (isBlank_of_isWordChar (inside c (.head _)))

theorem quote_stops (quote : Quote) (s : Text) : Stops isBlank (quote.1 :: s) :=
  stops_cons.mpr (isBlank_of_isQuote quote.2)

theorem semicolon_stops {p : Char → Bool} (stop : p ';' = false) (s : Text) :
    Stops p (";".toList ++ s) := stops_append rfl stop

theorem dropBlanks1?_blanks (blanks : Blanks1) {s : Text} (stop : Stops isBlank s) :
    dropBlanks1? (blanks.1.1 ++ s) = some s :=
  dropBlanks1?_append blanks.2 blanks.1.2 stop

theorem afterWord?_identifier (name : Identifier) {s : Text} (stop : Stops isWordChar s) :
    afterWord? (name.1 ++ s) = some s :=
  afterWord?_append name.2.1 name.2.2 stop

/-! ## Selections -/

theorem selection_stops (selection : Selection) (s : Text) :
    Stops isBlank (selection.text ++ s) := by
  cases selection with
  | symbols inside => exact stops_cons.mpr rfl
  | star afterStar afterAs name => exact stops_cons.mpr rfl
  | word name => exact identifier_stops name s

theorem afterNames?_text (selection : Selection) {s : Text} (stop : Stops isWordChar s) :
    afterNames? (selection.text ++ s) = some s := by
  cases selection with
  | symbols inside =>
    have closing : (inside.1 ++ '}' :: s).dropWhile (· != '}') = '}' :: s := by
      refine dropWhile_append_of_stops (fun c member => ?_) (stops_cons.mpr rfl)
      rw [bne_iff_ne]
      rintro rfl
      exact inside.2 member
    simp [Selection.text, afterNames?, closing]
  | star afterStar afterAs name =>
    have as_ : Stops isBlank ("as".toList ++ (afterAs.1.1 ++ (name.1 ++ s))) :=
      stops_append rfl rfl
    simp only [Selection.text, List.cons_append, List.append_assoc, afterNames?,
      Option.bind_eq_bind, dropBlanks1?_blanks _ as_, Option.bind_some, after?_append,
      dropBlanks1?_blanks _ (identifier_stops name s), afterWord?_identifier name stop]
  | word name =>
    have word := afterWord?_identifier name stop
    obtain ⟨letters, some_text, inside⟩ := name
    cases letters with
    | nil => exact absurd rfl some_text
    | cons c letters =>
      have noBrace : c ≠ '{' := by
        rintro rfl
        exact absurd (inside '{' (.head _)) (by decide)
      have noStar : c ≠ '*' := by
        rintro rfl
        exact absurd (inside '*' (.head _)) (by decide)
      simpa [Selection.text, afterNames?, noBrace, noStar] using word

theorem afterClause?_selection (selection : Selection) (beforeFrom afterFrom : Blanks1) {s : Text}
    (stop : Stops isBlank s) :
    afterClause? (selection.text ++ (beforeFrom.1.1 ++ ("from" ++ (afterFrom.1.1 ++ s)))) =
      some s := by
  have from_ : Stops isBlank ("from".toList ++ (afterFrom.1.1 ++ s)) := stops_append rfl rfl
  simp only [afterClause?, Option.bind_eq_bind,
    afterNames?_text selection (blanks_stops beforeFrom _), Option.bind_some,
    dropBlanks1?_blanks _ from_, after?_append, dropBlanks1?_blanks _ stop]

theorem afterClause?_quote (quote : Quote) (s : Text) : afterClause? (quote.1 :: s) = none := by
  obtain ⟨c, hc⟩ := quote
  rcases isQuote_eq_true hc with rfl | rfl <;> rfl

/-! ## The parts of a directive -/

namespace Written

variable (d : Written) (s : Text)

/-- What the selection and `from` leave to read begins with the quote. -/
theorem afterClause?_clauseText :
    (afterClause? (d.clauseText ++ d.opening.1 :: s)).getD (d.clauseText ++ d.opening.1 :: s) =
      d.opening.1 :: s := by
  unfold clauseText
  split
  · rw [List.nil_append, afterClause?_quote, Option.getD_none]
  · next selection before after _ =>
    have read := afterClause?_selection selection before after (quote_stops d.opening s)
    simp only [List.append_assoc] at read ⊢
    rw [read, Option.getD_some]

theorem clauseText_stops : Stops isBlank (d.clauseText ++ d.opening.1 :: s) := by
  unfold clauseText
  split
  · exact quote_stops d.opening s
  · rw [List.append_assoc]
    exact selection_stops _ _

theorem takePath?_path :
    takePath? (d.opening.1 :: (d.path.1 ++ d.closing.1 :: s)) = some (d.path.1, s) := by
  have plain : ∀ c ∈ d.path.1, (!isQuote c) = true := by
    intro c member
    rw [d.path.2.2 c member]
    rfl
  have stop : Stops (!isQuote ·) (d.closing.1 :: s) := by simp [d.closing.2]
  have taken := takeWhile_append_of_stops plain stop
  have left := dropWhile_append_of_stops plain stop
  cases path : d.path.1 with
  | nil => exact absurd path d.path.2.1
  | cons c rest =>
    rw [path] at taken left
    simp only [takePath?, d.opening.2, if_true, taken, left]

/-- What the name for the whole file leaves to read begins with the white space before the
semicolon. -/
theorem afterAlias?_aliasText :
    (afterAlias? (d.aliasText ++ (d.beforeEnd.1 ++ (";" ++ s)))).getD
      (d.aliasText ++ (d.beforeEnd.1 ++ (";" ++ s))) = d.beforeEnd.1 ++ (";" ++ s) := by
  unfold aliasText
  split
  · have noAlias : afterAlias? (d.beforeEnd.1 ++ (";" ++ s)) = none := by
      by_cases empty : d.beforeEnd.1 = []
      · rw [empty]
        rfl
      · have read := dropBlanks1?_append empty d.beforeEnd.2 (semicolon_stops rfl s)
        rw [afterAlias?, read]
        rfl
    rw [List.nil_append, noAlias, Option.getD_none]
  · next before after name _ =>
    have as_ : Stops isBlank
        ("as".toList ++ (after.1.1 ++ (name.1 ++ (d.beforeEnd.1 ++ (";" ++ s))))) :=
      stops_append rfl rfl
    have wordEnd : Stops isWordChar (d.beforeEnd.1 ++ (";" ++ s)) := by
      by_cases empty : d.beforeEnd.1 = []
      · rw [empty]
        exact semicolon_stops rfl s
      · exact blanks_stops ⟨d.beforeEnd, empty⟩ _
    simp only [List.append_assoc, afterAlias?, Option.bind_eq_bind, dropBlanks1?_blanks _ as_,
      Option.bind_some, after?_append, dropBlanks1?_blanks _ (identifier_stops name _),
      afterWord?_identifier name wordEnd, Option.getD_some]

end Written

/-- A written directive is found where one may start, whatever follows it. -/
theorem directive_written (d : Written) {before : Option Char} (start : mayStart before = true)
    (s : Text) : directive before (d.text ++ s) = some (d.directive, afterLineEnd s) := by
  have import_ (s : Text) : Stops isSpaceOrTab ("import".toList ++ s) := stops_append rfl rfl
  have semicolon : [';'] ++ s = ";".toList ++ s := rfl
  have ending : Stops isBlank (";".toList ++ s) := semicolon_stops rfl s
  simp only [directive, start, if_true, Written.text, List.append_assoc, List.cons_append,
    semicolon, dropSpaces_append d.indent.2 (import_ _), after?_append,
    Option.bind_eq_bind, Option.bind_some, dropBlanks1?_blanks d.gap (d.clauseText_stops _),
    d.afterClause?_clauseText, d.takePath?_path, d.afterAlias?_aliasText,
    dropBlanks_append d.beforeEnd.2 ending]
  rfl

end Import

end TokenForge

import TokenForge.Proofs.Import.Written
import TokenForge.Proofs.Text.Parts

/-!
# Texts with directives

In a `Manuscript` directives stand where they may start: at the beginning, behind a line
feed or behind a semicolon, which may be that of the directive before.  Elsewhere in it the
word `import` does not stand.

A scan finds the directives of a manuscript, in their order, and nothing else
(`paths_manuscript`).  What it covers with each is the directive and, of the text behind it,
at most spaces, tabs and a line break (`Scanned`).
-/

namespace TokenForge

namespace Import

open Text

/-! ## Words -/

/-- A word stands in a text, with no letter, digit or underscore next to it. -/
def HoldsWord (word s : Text) : Prop :=
  ∃ read rest, s = read ++ (word ++ rest) ∧ (∀ c ∈ read.getLast?, isWordChar c = false) ∧
    Stops isWordChar rest

/-- A text that holds a word holds it also behind white space. -/
theorem HoldsWord.prepend {word s front : Text} (h : HoldsWord word s)
    (blank : ∀ c ∈ front, isBlank c = true) : HoldsWord word (front ++ s) := by
  obtain ⟨read, rest, rfl, before, behind⟩ := h
  refine ⟨front ++ read, rest, by rw [List.append_assoc], fun c last => ?_, behind⟩
  rw [List.getLast?_append] at last
  cases end_ : read.getLast? with
  | some d =>
    rw [end_] at last before
    exact before c last
  | none =>
    rw [end_] at last
    exact isWordChar_of_isBlank (blank c (List.mem_of_getLast? last))

/-- What is left of a closed text ends where a directive may start. -/
theorem Closed.ended {s left : Text} (closed : Closed s) (suffix : left <:+ s)
    (some_left : left ≠ []) (tail : Text) : Ended left tail := by
  obtain ⟨read, rfl⟩ := suffix
  exact .inr ⟨some_left, (closed_append some_left).mp closed⟩

/-! ## Manuscripts -/

/-- A text without the word `import`. -/
abbrev Wordless := {s : Text // ¬ HoldsWord "import" s}

/-- A text with directives. -/
inductive Manuscript where
  /-- What follows the last directive. -/
  | last (s : Wordless)
  /-- Text behind which a directive may start, the directive and what follows it. -/
  | directive (s : Wordless) (closed : Closed s.1) (d : Written) (rest : Manuscript)

namespace Manuscript

/-- The text of a manuscript. -/
def text : Manuscript → Text
  | last s => s.1
  | directive s _ d rest => s.1 ++ (d.text ++ rest.text)

/-- The directives of a manuscript. -/
def directives : Manuscript → List Written
  | last _ => []
  | directive _ _ d rest => d :: rest.directives

/-- What stands before the first directive. -/
def front : Manuscript → Text
  | last s => s.1
  | directive s _ _ _ => s.1

/-- The first directive and what follows it. -/
def behind : Manuscript → Text
  | last _ => []
  | directive _ _ d rest => d.text ++ rest.text

theorem text_eq (m : Manuscript) : m.text = m.front ++ m.behind := by
  cases m with
  | last s => exact (List.append_nil s.1).symm
  | directive s closed d rest => rfl

theorem front_wordless (m : Manuscript) : ¬ HoldsWord "import" m.front := by
  cases m with
  | last s => exact s.2
  | directive s closed d rest => exact s.2

/-- What is left before the first directive ends where the directive starts. -/
theorem front_ended (m : Manuscript) {left : Text} (suffix : left <:+ m.front)
    (some_left : left ≠ []) : Ended left m.behind := by
  cases m with
  | last s => exact .inl rfl
  | directive s closed d rest => exact closed.ended suffix some_left _

end Manuscript

/-! ## Scans -/

/-- Spaces and tabs, and perhaps a line break behind them. -/
def Trailing (s : Text) : Prop :=
  ∃ spaces lineBreak : Text, s = spaces ++ lineBreak ∧ (∀ c ∈ spaces, isSpaceOrTab c = true) ∧
    (lineBreak = [] ∨ lineBreak = ['\n'] ∨ lineBreak = ['\r', '\n'])

/-- The pieces of a manuscript of which `left` is left before the first directive.  Every directive
is a hit, which covers it and takes at most the end of a line from what follows it.  All other
characters belong to no hit. -/
inductive Scanned : Text → Manuscript → List (Piece Directive) → Prop where
  | last {left : Text} {s : Wordless} : Scanned left (.last s) (left.map .char)
  | directive {left taken behind : Text} {s : Wordless} {closed : Closed s.1} {d : Written}
      {rest : Manuscript} {pieces : List (Piece Directive)} (trailing : Trailing taken)
      (split : rest.front = taken ++ behind) (scanned : Scanned behind rest pieces) :
      Scanned left (.directive s closed d rest)
        (left.map .char ++ .hit d.directive (d.text ++ taken) :: pieces)

theorem isBlank_of_trailing {s : Text} (h : Trailing s) : ∀ c ∈ s, isBlank c = true := by
  obtain ⟨spaces, lineBreak, rfl, blank, kind⟩ := h
  refine List.forall_mem_append.mpr ⟨fun c member => isBlank_of_isSpaceOrTab (blank c member), ?_⟩
  rcases kind with rfl | rfl | rfl <;> simp [isBlank]

/-- Of what is left before a directive, or at the end of the text, the end of a line is taken. -/
theorem exists_trailing {s tail : Text} (h : Ended s tail) :
    ∃ taken left, s = taken ++ left ∧ Trailing taken ∧ afterLineEnd (s ++ tail) = left ++ tail := by
  obtain ⟨spaces, blank, split⟩ := exists_spaces s
  have read := h.dropSpaces_append
  have ended := h.dropSpaces
  cases line : dropSpaces s with
  | nil =>
    refine ⟨s, [], by simp, ⟨_, [], ?_, blank, .inl rfl⟩, ?_⟩
    · rwa [line] at split
    · rw [h.eq_nil_of_dropSpaces line, List.append_nil, afterLineEnd, line]
      rfl
  | cons c rest =>
    rw [line] at split read ended
    have none_taken (same : afterLineEnd (s ++ tail) = s ++ tail) : ∃ taken left,
        s = taken ++ left ∧ Trailing taken ∧ afterLineEnd (s ++ tail) = left ++ tail :=
      ⟨[], s, rfl, ⟨[], [], rfl, by simp, .inl rfl⟩, same⟩
    by_cases feed : c = '\n'
    · subst feed
      refine ⟨_ ++ ['\n'], rest, by simpa using split, ⟨_, _, rfl, blank, .inr (.inl rfl)⟩, ?_⟩
      rw [afterLineEnd, read]
      rfl
    by_cases return_ : c = '\r'
    · subst return_
      cases rest with
      | nil =>
        -- A carriage return alone does not end a part, so that nothing follows it.
        have nothing : tail = [] := ended.resolve_right fun closed => by cases closed.2
        subst nothing
        refine none_taken ?_
        rw [afterLineEnd, read]
        rfl
      | cons d rest =>
        by_cases feed : d = '\n'
        · subst feed
          refine ⟨_ ++ ['\r', '\n'], rest, by simpa using split,
            ⟨_, _, rfl, blank, .inr (.inr rfl)⟩, ?_⟩
          rw [afterLineEnd, read]
          rfl
        · refine none_taken ?_
          rw [afterLineEnd, read]
          simp [feed]
    · refine none_taken ?_
      rw [afterLineEnd, read]
      simp [feed, return_]

/-- Before a directive no end of a line is taken. -/
theorem afterLineEnd_written (d : Written) (s : Text) :
    afterLineEnd (d.text ++ s) = d.text ++ s := by
  have word (s : Text) : Stops isSpaceOrTab ("import".toList ++ s) := stops_append rfl rfl
  have read : dropSpaces (d.text ++ s) = "import" ++ (dropSpaces (d.text ++ s)).drop 6 := by
    simp only [Written.text, List.append_assoc, dropSpaces_append d.indent.2 (word _)]
    rfl
  rw [afterLineEnd, read]
  rfl

theorem Manuscript.exists_trailing (m : Manuscript) :
    ∃ taken left, m.front = taken ++ left ∧ Trailing taken ∧
      afterLineEnd m.text = left ++ m.behind := by
  rw [m.text_eq]
  by_cases some_front : m.front = []
  · refine ⟨[], [], some_front, ⟨[], [], rfl, by simp, .inl rfl⟩, ?_⟩
    rw [some_front, List.nil_append]
    cases m with
    | last s => rfl
    | directive s closed d rest => exact afterLineEnd_written d rest.text
  · exact Import.exists_trailing (m.front_ended (List.suffix_refl _) some_front)

/-! ## Reading a manuscript -/

theorem Closed.mayStart_charBefore {before : Option Char} {s : Text} (closed : Closed s)
    (start : mayStart before = true) : mayStart (charBefore before s) = true := by
  by_cases nothing : s = []
  · rwa [nothing]
  · rwa [charBefore_eq_getLast? before nothing]

/-- Where a directive may start no word ends. -/
theorem isWordChar_of_mayStart {c : Char} (start : mayStart (some c) = true) :
    isWordChar c = false := by
  simp only [mayStart, Bool.or_eq_true, beq_iff_eq] at start
  rcases start with rfl | rfl <;> decide

theorem Written.closed_text (d : Written) : Closed d.text := by
  have ends : d.text = (d.indent.1 ++ ("import" ++ (d.gap.1.1 ++ (d.clauseText ++
      (d.opening.1 :: (d.path.1 ++ (d.closing.1 :: (d.aliasText ++ d.beforeEnd.1)))))))) ++
      [';'] := by
    simp [Written.text]
  rw [ends]
  exact closed_concat rfl

theorem Written.text_ne_nil (d : Written) : d.text ≠ [] := by simp [Written.text]

/-- Where no directive stands none is found. -/
theorem directive_eq_none_of_wordless {s read left tail : Text} {before : Option Char}
    (wordless : ¬ HoldsWord "import" s) (split : s = read ++ left) (ended : Ended left tail) :
    directive (charBefore before read) (left ++ tail) = none := by
  cases found : directive (charBefore before read) (left ++ tail) with
  | none => rfl
  | some hit =>
    obtain ⟨start, behind, rest, word, blanks, _⟩ := directive_eq_some found
    obtain ⟨spaces, blank, whole⟩ := exists_spaces left
    rw [ended.dropSpaces_append, ended.dropSpaces.after?_append (by decide),
      Option.map_eq_some_iff] at word
    obtain ⟨more, word, rfl⟩ := word
    rw [after?_eq_some_iff] at word
    refine absurd ⟨read ++ spaces, more, ?_, fun c last => ?_, ?_⟩ wordless
    · rw [split, List.append_assoc, ← word, ← whole]
    · -- The last character is a space or a tab, or one behind which a directive may start.
      rw [List.getLast?_append] at last
      cases end_ : spaces.getLast? with
      | some d =>
        rw [end_] at last
        obtain rfl : d = c := Option.some.inj last
        exact isWordChar_of_isBlank
          (isBlank_of_isSpaceOrTab (blank d (List.mem_of_getLast? end_)))
      | none =>
        rw [end_, Option.none_or] at last
        have some_read : read ≠ [] := by
          rintro rfl
          cases last
        rw [charBefore_eq_getLast? before some_read, last] at start
        exact isWordChar_of_mayStart start
    · cases more with
      | nil => exact stops_nil _
      | cons c more =>
        rw [List.cons_append, dropBlanks1?, Option.ite_none_right_eq_some] at blanks
        exact stops_cons.mpr (isWordChar_of_isBlank blanks.1)

/-- Before the first directive a manuscript is read character by character.  Of the text there
`taken` was read with the directive before it. -/
theorem piecesFrom_front (m : Manuscript) {before : Option Char} {taken left : Text}
    (split : m.front = taken ++ left) (blank : ∀ c ∈ taken, isBlank c = true) :
    piecesFrom directive 0 before (left ++ m.behind) =
      left.map .char ++ piecesFrom directive 0 (charBefore before left) m.behind := by
  have wordless : ¬ HoldsWord "import" left := fun holds =>
    m.front_wordless (split ▸ holds.prepend blank)
  refine piecesFrom_quiet fun read more part some_more => ?_
  have suffix : more <:+ m.front := ⟨taken ++ read, by rw [split, part, List.append_assoc]⟩
  exact directive_eq_none_of_wordless wordless part (m.front_ended suffix some_more)

theorem scanned_piecesFrom (m : Manuscript) {before : Option Char} {taken left : Text}
    (split : m.front = taken ++ left) (blank : ∀ c ∈ taken, isBlank c = true)
    (start : Closed m.front → mayStart (charBefore before left) = true) :
    Scanned left m (piecesFrom directive 0 before (left ++ m.behind)) := by
  induction m generalizing before taken left with
  | last s =>
    rw [piecesFrom_front _ split blank]
    simp only [Manuscript.behind, piecesFrom, List.append_nil]
    exact .last
  | directive s closed d rest ih =>
    obtain ⟨more, behind, front, trailing, read⟩ := rest.exists_trailing
    have hit := directive_written d (start closed) rest.text
    have covered : d.text ++ rest.text = (d.text ++ more) ++ (behind ++ rest.behind) := by
      rw [rest.text_eq, front]
      simp only [List.append_assoc]
    rw [read, covered] at hit
    rw [piecesFrom_front _ split blank, Manuscript.behind, covered,
      piecesFrom_hit hit (by simp [d.text_ne_nil])]
    refine .directive trailing front (ih front (isBlank_of_trailing trailing) fun ends => ?_)
    rw [← charBefore_append, List.append_assoc, ← front, charBefore_append]
    exact ends.mayStart_charBefore (d.closed_text.mayStart_charBefore (start closed))

theorem Scanned.found {left : Text} {m : Manuscript} {pieces : List (Piece Directive)}
    (h : Scanned left m pieces) : Text.found pieces = m.directives.map Written.directive := by
  induction h with
  | last => exact found_chars _
  | directive trailing front scanned ih =>
    rw [found_append, found_chars, List.nil_append, Manuscript.directives, List.map_cons, ← ih]
    rfl

/-- The paths that a manuscript imports are those of its directives, in their order, and a scan
finds each directive with at most the end of a line behind it. -/
theorem paths_manuscript (m : Manuscript) (importer : Option Text) :
    paths m.text importer = m.directives.map (fun d => resolve d.path.1 importer) ∧
      Scanned m.front m (pieces directive m.text) := by
  have scanned : Scanned m.front m (pieces directive m.text) := by
    rw [m.text_eq]
    have front : m.front = [] ++ m.front := rfl
    exact scanned_piecesFrom m front (by simp) fun closed => closed.mayStart_charBefore rfl
  refine ⟨?_, scanned⟩
  calc paths m.text importer
    _ = (Text.found (pieces directive m.text)).map fun d => resolve d.path importer := rfl
    _ = (m.directives.map Written.directive).map fun d => resolve d.path importer := by
        rw [scanned.found]
    _ = m.directives.map fun d => resolve d.path.1 importer := by
        rw [List.map_map]
        rfl

end Import

end TokenForge

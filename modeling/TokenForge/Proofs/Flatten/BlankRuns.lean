import TokenForge.Proofs.Flatten.Layout

/-!
# Collapsing runs of blank lines

A text is collapsed line by line: a line stays, and the blank lines behind it are collapsed as one
run, up to a place where no blank line begins (`collapseBlankLines_behind`).  From this the sheet of
a collapsed text has the collapsed layout (`ofText_collapseBlankLines`).

The scan looks at characters and not at lines.  It finds nothing inside a line (`BreakFree`), and at
a line break it counts the blank lines that follow, so that all is said in terms of parts without a
line break and of line breaks.
-/

namespace TokenForge

namespace BlankLines

/-! ## The blank lines of a part -/

section Parts

variable {line : Line} {blanks : List Line} {part after s : Text}

theorem blankLines_blank (blank : line.isBlank = true) (s : Text) :
    blankLines (line.text ++ s) = blankLines s + 1 := by
  rw [Line.text, List.append_assoc, blankLines_line (List.all_eq_true.mp blank)]

theorem blankLines_blanks (blank : ∀ line ∈ blanks, line.isBlank = true) (s : Text) :
    blankLines (blanks.flatMap Line.text ++ s) = blanks.length + blankLines s := by
  induction blanks with
  | nil => simp
  | cons line blanks ih =>
    obtain ⟨first, later⟩ := List.forall_mem_cons.mp blank
    rw [List.flatMap_cons, List.append_assoc, blankLines_blank first, ih later, List.length_cons]
    omega

/-- A part with a character that is no space or tab stops the blank lines. -/
theorem BreakFree.blankLines (h : BreakFree after part) (solid : part.all isSpaceOrTab = false) :
    blankLines (part ++ after) = 0 := by
  induction h with
  | nil => cases solid
  | @cons c part none _ ih =>
    rw [List.cons_append]
    cases space : isSpaceOrTab c with
    | true =>
      rw [blankLines_space space]
      exact ih (by simpa [space] using solid)
    | false =>
      rw [blankLines_cons none, if_neg (by simp [space])]

theorem BreakFree.blankLines_rest (h : BreakFree [] part) : BlankLines.blankLines part = 0 := by
  rw [← List.append_nil part]
  cases blank : part.all isSpaceOrTab with
  | true => exact blankLines_spaces (List.all_eq_true.mp blank) []
  | false => exact h.blankLines blank

theorem blankLines_solid (proper : line.Proper) (solid : line.isBlank = false) (s : Text) :
    blankLines (line.text ++ s) = 0 := by
  rw [Line.text, List.append_assoc]
  exact (proper.breakFree s).blankLines solid

theorem dropBlankLines_blanks (blank : ∀ line ∈ blanks, line.isBlank = true) (count : Nat)
    (none : blankLines s = 0) :
    (dropBlankLines count (blanks.flatMap Line.text ++ s)
      (blanks.flatMap Line.text ++ s)).2 = s := by
  induction blanks generalizing count with
  | nil =>
    rw [List.flatMap_nil, List.nil_append, dropBlankLines_of_blankLines_eq_zero none]
  | cons line blanks ih =>
    obtain ⟨first, later⟩ := List.forall_mem_cons.mp blank
    rw [List.flatMap_cons, Line.text, List.append_assoc, List.append_assoc,
      dropBlankLines_line (List.all_eq_true.mp first), ih later]

end Parts

end BlankLines

/-! ## Collapsing part by part -/

section Collapsing

open BlankLines Text

variable {line : Line} {blanks : List Line} {part after s : Text}

/-- What stands before a text does not matter to the scan for runs. -/
theorem pieces_run (before : Option Char) (s : Text) :
    piecesFrom run 0 before s = pieces run s := by
  cases s <;> rfl

theorem collapseBlankLines_nil : collapseBlankLines [] = [] := rfl

theorem collapseBlankLines_cons {c : Char} (none : run none (c :: s) = none) :
    collapseBlankLines (c :: s) = c :: collapseBlankLines s := by
  rw [collapseBlankLines, replace_eq, pieces, piecesFrom_miss none, pieces_run, List.flatMap_cons]
  rfl

/-- Nothing is found where no line break begins. -/
theorem BlankLines.BreakFree.collapseBlankLines (h : BreakFree after part) :
    collapseBlankLines (part ++ after) = part ++ collapseBlankLines after := by
  induction h with
  | nil => rfl
  | @cons c part none _ ih =>
    have quiet : run .none (c :: (part ++ after)) = .none := by
      rw [run_eq, none]
      rfl
    rw [List.cons_append, collapseBlankLines_cons quiet, ih, List.cons_append]

/-- A line break with at most two blank lines behind it stays. -/
theorem collapseBlankLines_lineBreak (lineBreak : LineBreak) (few : blankLines s ≤ 2) :
    collapseBlankLines (lineBreak.text ++ s) = lineBreak.text ++ collapseBlankLines s := by
  -- The line feed of a carriage return and a line feed is a position of its own to the scan.
  have feed : collapseBlankLines ('\n' :: s) = '\n' :: collapseBlankLines s :=
    collapseBlankLines_cons (run_lineBreak none .lf few)
  cases lineBreak with
  | lf => exact feed
  | crlf =>
    have return_ : collapseBlankLines ('\r' :: '\n' :: s) =
        '\r' :: collapseBlankLines ('\n' :: s) :=
      collapseBlankLines_cons (run_lineBreak none .crlf few)
    exact return_.trans (congrArg ('\r' :: ·) feed)

/-- A line break and a run of blank lines become three line breaks. -/
theorem collapseBlankLines_run (lineBreak : LineBreak)
    (blank : ∀ line ∈ blanks, line.isBlank = true) (many : 3 ≤ blanks.length)
    (none : blankLines s = 0) :
    collapseBlankLines (lineBreak.text ++ (blanks.flatMap Line.text ++ s)) =
      lineBreak.text ++ lineBreak.text ++ lineBreak.text ++ collapseBlankLines s := by
  have hit : run .none ((lineBreak.text ++ blanks.flatMap Line.text) ++ s) =
      some (lineBreak, s) := by
    rw [List.append_assoc, run_eq, takeBreak?_lineBreak, Option.bind_some, blankLines_blanks blank,
      none, if_pos (by simpa using many), dropBlankLines_blanks blank 0 none]
  have some_text : lineBreak.text ++ blanks.flatMap Line.text ≠ [] := by
    cases lineBreak <;> simp [LineBreak.text]
  rw [← List.append_assoc lineBreak.text, collapseBlankLines, replace_eq, pieces,
    piecesFrom_hit hit some_text, pieces_run, List.flatMap_cons]
  rfl

/-- A line with at most two blank lines behind it stays. -/
theorem collapseBlankLines_line (proper : line.Proper) (few : blankLines s ≤ 2) :
    collapseBlankLines (line.text ++ s) = line.text ++ collapseBlankLines s := by
  rw [Line.text, List.append_assoc, (proper.breakFree s).collapseBlankLines,
    collapseBlankLines_lineBreak _ few, List.append_assoc]

theorem collapseBlankLines_blanks (blank : ∀ line ∈ blanks, line.isBlank = true)
    (proper : ∀ line ∈ blanks, line.Proper) (few : blanks.length ≤ 2) (none : blankLines s = 0) :
    collapseBlankLines (blanks.flatMap Line.text ++ s) =
      blanks.flatMap Line.text ++ collapseBlankLines s := by
  induction blanks with
  | nil => rfl
  | cons line blanks ih =>
    obtain ⟨_, blankLater⟩ := List.forall_mem_cons.mp blank
    obtain ⟨here, later⟩ := List.forall_mem_cons.mp proper
    rw [List.length_cons] at few
    have fewer : blankLines (blanks.flatMap Line.text ++ s) ≤ 2 := by
      rw [blankLines_blanks blankLater, none]
      omega
    rw [List.flatMap_cons, List.append_assoc, collapseBlankLines_line here fewer,
      ih blankLater later (by omega), List.append_assoc]

/-- A line stays, and the blank lines behind it are collapsed. -/
theorem collapseBlankLines_behind (here : line.Proper)
    (blank : ∀ line ∈ blanks, line.isBlank = true) (proper : ∀ line ∈ blanks, line.Proper)
    (none : blankLines s = 0) :
    collapseBlankLines (line.text ++ (blanks.flatMap Line.text ++ s)) =
      line.text ++
        ((collapseRun line.ending blanks).flatMap Line.text ++ collapseBlankLines s) := by
  rw [collapseRun]
  split
  · next many =>
    rw [Line.text, List.append_assoc, (here.breakFree _).collapseBlankLines,
      collapseBlankLines_run _ blank many none]
    simp [Line.text]
  · next few =>
    have fewer : blankLines (blanks.flatMap Line.text ++ s) ≤ 2 := by
      rw [blankLines_blanks blank, none]
      omega
    rw [collapseBlankLines_line here fewer, collapseBlankLines_blanks blank proper (by omega) none]

/-! ## Collapsing a layout -/

section Paragraphs

variable {paragraphs : List Paragraph} {rest : Text}

theorem blankLines_paragraphs
    (proper : ∀ line ∈ paragraphs.flatMap Paragraph.lines, line.Proper) (h : BreakFree [] rest) :
    blankLines ((paragraphs.flatMap Paragraph.lines).flatMap Line.text ++ rest) = 0 := by
  cases paragraphs with
  | nil => exact h.blankLines_rest
  | cons paragraph paragraphs =>
    have here : paragraph.line.Proper := proper _ (by simp [Paragraph.lines])
    rw [List.flatMap_cons, Paragraph.lines, List.cons_append, List.flatMap_cons, List.append_assoc]
    exact blankLines_solid here paragraph.solid _

theorem collapseBlankLines_paragraphs
    (proper : ∀ line ∈ paragraphs.flatMap Paragraph.lines, line.Proper) (h : BreakFree [] rest) :
    collapseBlankLines ((paragraphs.flatMap Paragraph.lines).flatMap Line.text ++ rest) =
      ((paragraphs.map Paragraph.collapsed).flatMap Paragraph.lines).flatMap Line.text ++ rest := by
  induction paragraphs with
  | nil =>
    have whole := h.collapseBlankLines
    simpa [collapseBlankLines_nil] using whole
  | cons paragraph paragraphs ih =>
    rw [List.flatMap_cons, List.forall_mem_append] at proper
    obtain ⟨inside, later⟩ := proper
    obtain ⟨here, blanks⟩ := List.forall_mem_cons.mp inside
    have none := blankLines_paragraphs later h
    have step := collapseBlankLines_behind here paragraph.blank blanks none
    rw [ih later] at step
    simpa [Paragraph.lines, Paragraph.collapsed] using step

end Paragraphs

/-- Proper lines are collapsed as their layout says, and the rest stays. -/
theorem collapseBlankLines_text {layout : Layout} {rest : Text}
    (proper : Sheet.Proper ⟨layout.lines, rest⟩) :
    collapseBlankLines (Sheet.text ⟨layout.lines, rest⟩) =
      Sheet.text ⟨layout.collapsed.lines, rest⟩ := by
  obtain ⟨opening, paragraphs, blank⟩ := layout
  obtain ⟨lines, h⟩ := proper
  obtain ⟨inOpening, inParagraphs⟩ := List.forall_mem_append.mp lines
  have behind := collapseBlankLines_paragraphs inParagraphs h
  cases opening with
  | nil => exact behind
  | cons first blanks =>
    -- The first line stays, as the line in front of a run does.
    obtain ⟨here, later⟩ := List.forall_mem_cons.mp inOpening
    have step := collapseBlankLines_behind here (List.forall_mem_cons.mp blank).2 later
      (blankLines_paragraphs inParagraphs h)
    rw [behind] at step
    simpa [Sheet.text, Layout.lines, Layout.collapsed, collapseOpening] using step

theorem ofText_collapseBlankLines (s : Text) :
    Sheet.ofText (collapseBlankLines s) =
      ⟨(Layout.ofLines (Sheet.ofText s).lines).collapsed.lines, (Sheet.ofText s).rest⟩ := by
  have proper := Sheet.proper_ofText s
  have text := Sheet.text_ofText s
  generalize Sheet.ofText s = sheet at proper text
  obtain ⟨lines, rest⟩ := sheet
  rw [← Layout.lines_ofLines lines] at proper text
  rw [← text, collapseBlankLines_text proper]
  exact Sheet.ofText_text
    ⟨Layout.forall_mem_collapsed proper.lines Line.proper_empty, proper.rest⟩

/-- The runs of blank lines of a collapsed text are those of the text, collapsed: behind a line that
is not blank three or more become two, at the beginning of the text four or more become three.  All
other lines stay as they are, and so does what follows the last line break. -/
theorem layout_collapseBlankLines (s : Text) :
    Layout.ofLines (Sheet.ofText (collapseBlankLines s)).lines =
        (Layout.ofLines (Sheet.ofText s).lines).collapsed ∧
      (Sheet.ofText (collapseBlankLines s)).rest = (Sheet.ofText s).rest := by
  rw [ofText_collapseBlankLines, Layout.ofLines_lines]
  exact ⟨rfl, rfl⟩

/-- A run at the beginning keeps its first line and two more. -/
example : collapseBlankLines " \n\n\n\r\n\nb" = (" \n\n\nb" : Text) := by decide

/-- Collapsing a second time does nothing, and the first time only blank lines are removed or
replaced: the lines that are not blank stay with their line breaks, and so does what follows the
last line break. -/
theorem collapseBlankLines_thinned (s : Text) :
    collapseBlankLines (collapseBlankLines s) = collapseBlankLines s ∧
      Thinned (Sheet.ofText s).lines (Sheet.ofText (collapseBlankLines s)).lines ∧
      (Sheet.ofText (collapseBlankLines s)).lines.filter (!·.isBlank) =
        (Sheet.ofText s).lines.filter (!·.isBlank) ∧
      (Sheet.ofText (collapseBlankLines s)).rest = (Sheet.ofText s).rest := by
  have thinned : Thinned (Sheet.ofText s).lines (Sheet.ofText (collapseBlankLines s)).lines := by
    rw [ofText_collapseBlankLines]
    simpa only [Layout.lines_ofLines] using
      Thinned.collapsed (Layout.ofLines (Sheet.ofText s).lines)
  refine ⟨collapseBlankLines_collapseBlankLines s, thinned, thinned.solid, ?_⟩
  rw [ofText_collapseBlankLines]

end Collapsing

end TokenForge

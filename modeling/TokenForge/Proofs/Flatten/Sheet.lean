import TokenForge.Proofs.Flatten.BlankLines

/-!
# Lines with their line breaks

A sheet is a text cut at its line breaks: the lines that end in one, each with the break
that it ends in, and what follows the last break.  A carriage return without a line feed
behind it is a character of its line like any other.

A text and its sheet determine each other.  Cutting loses nothing (`Sheet.text_ofText`), no
line break is left inside a line or behind the last one (`Sheet.proper_ofText`), and a sheet
with this property is what its text is cut into (`Sheet.ofText_text`).
-/

namespace TokenForge

namespace BlankLines

/-! ## Parts without line breaks -/

/-- Whether a character begins a line break is decided by the next one. -/
theorem takeBreak?_cons_append {c : Char} {s : Text} (some_text : s ≠ []) (rest : Text) :
    takeBreak? (c :: (s ++ rest)) = none ↔ takeBreak? (c :: s) = none := by
  obtain ⟨d, s, rfl⟩ := List.exists_cons_of_ne_nil some_text
  rw [takeBreak?_cons_eq_none_iff, takeBreak?_cons_eq_none_iff, List.cons_append, List.head?_cons,
    List.head?_cons]

/-- No line break begins in a part of a text that `after` follows. -/
inductive BreakFree (after : Text) : Text → Prop where
  | nil : BreakFree after []
  | cons {c : Char} {part : Text} : takeBreak? (c :: (part ++ after)) = none →
      BreakFree after part → BreakFree after (c :: part)

variable {after part s : Text}

theorem BreakFree.append (h : BreakFree after part) (some_text : after ≠ []) (rest : Text) :
    BreakFree (after ++ rest) part := by
  induction h with
  | nil => exact .nil
  | @cons c part none _ ih =>
    have some_more : part ++ after ≠ [] := List.append_ne_nil_of_right_ne_nil part some_text
    refine .cons ?_ ih
    rw [← List.append_assoc, takeBreak?_cons_append some_more]
    exact none

/-! ## Lines -/

/-- A line that ends in a line break. -/
structure Line where
  /-- The characters in front of the line break. -/
  content : Text
  /-- The line break. -/
  ending : LineBreak
  deriving DecidableEq, Repr

namespace Line

/-- The text of a line with its line break. -/
def text (line : Line) : Text := line.content ++ line.ending.text

/-- Whether a line has nothing but spaces and tabs. -/
def isBlank (line : Line) : Bool := line.content.all isSpaceOrTab

/-- The first line break of a line is its ending. -/
def Proper (line : Line) : Prop := BreakFree line.ending.text line.content

theorem text_ne_nil (line : Line) : line.text ≠ [] := by
  obtain ⟨content, _ | _⟩ := line <;> simp [text, LineBreak.text]

theorem proper_empty (ending : LineBreak) : Proper ⟨[], ending⟩ := .nil

theorem Proper.breakFree {line : Line} (proper : line.Proper) (s : Text) :
    BreakFree (line.ending.text ++ s) line.content :=
  proper.append (by cases line.ending <;> simp [LineBreak.text]) s

end Line

/-! ## Sheets -/

/-- The lines of a text. -/
structure Sheet where
  /-- The lines that end in a line break. -/
  lines : List Line
  /-- What follows the last line break. -/
  rest : Text
  deriving DecidableEq, Repr

namespace Sheet

/-- The text of a sheet. -/
def text (sheet : Sheet) : Text := sheet.lines.flatMap Line.text ++ sheet.rest

/-- A sheet with a line in front of it. -/
def cons (line : Line) (sheet : Sheet) : Sheet := { sheet with lines := line :: sheet.lines }

/-- A sheet with a character in front of its first line. -/
def push (c : Char) : Sheet → Sheet
  | ⟨[], rest⟩ => ⟨[], c :: rest⟩
  | ⟨line :: lines, rest⟩ => ⟨{ line with content := c :: line.content } :: lines, rest⟩

/-- Cuts a text at its line breaks. -/
def ofText : Text → Sheet
  | [] => ⟨[], []⟩
  | '\n' :: s => (ofText s).cons ⟨[], .lf⟩
  | '\r' :: '\n' :: s => (ofText s).cons ⟨[], .crlf⟩
  | c :: s => (ofText s).push c

theorem ofText_lineBreak (lineBreak : LineBreak) (s : Text) :
    ofText (lineBreak.text ++ s) = (ofText s).cons ⟨[], lineBreak⟩ := by
  cases lineBreak <;> rfl

theorem ofText_cons {c : Char} (none : takeBreak? (c :: s) = none) :
    ofText (c :: s) = (ofText s).push c :=
  ofText.eq_4 c s (takeBreak?_cons_eq_none_iff.mp none).1 (ne_crlf_of_takeBreak? none)

@[simp]
theorem text_cons (line : Line) (sheet : Sheet) :
    (sheet.cons line).text = line.text ++ sheet.text := by
  simp [text, cons]

@[simp]
theorem text_push (c : Char) (sheet : Sheet) : (sheet.push c).text = c :: sheet.text := by
  obtain ⟨_ | ⟨line, lines⟩, rest⟩ := sheet
  · rfl
  · simp [text, push, Line.text]

/-- A text that is cut and put together again. -/
@[simp]
theorem text_ofText (s : Text) : (ofText s).text = s := by
  induction s using lineBreak_induction with
  | nil => rfl
  | lineBreak lineBreak s ih =>
    rw [ofText_lineBreak, text_cons, ih]
    rfl
  | cons c s none ih => rw [ofText_cons none, text_push, ih]

/-- The line breaks of the text of a sheet are the endings of its lines. -/
structure Proper (sheet : Sheet) : Prop where
  lines : ∀ line ∈ sheet.lines, line.Proper
  rest : BreakFree [] sheet.rest

theorem Proper.cons {line : Line} {sheet : Sheet} (first : line.Proper) (h : sheet.Proper) :
    (sheet.cons line).Proper where
  lines := List.forall_mem_cons.mpr ⟨first, h.lines⟩
  rest := h.rest

/-- A character that begins no line break may stand in front of a sheet. -/
theorem Proper.push {c : Char} {sheet : Sheet} (none : takeBreak? (c :: sheet.text) = none)
    (h : sheet.Proper) : (sheet.push c).Proper := by
  obtain ⟨_ | ⟨line, lines⟩, rest⟩ := sheet
  · refine ⟨h.lines, .cons ?_ h.rest⟩
    rw [List.append_nil]
    exact none
  · obtain ⟨first, later⟩ := List.forall_mem_cons.mp h.lines
    refine ⟨List.forall_mem_cons.mpr ⟨.cons ?_ first, later⟩, h.rest⟩
    rw [text, List.flatMap_cons, List.append_assoc, takeBreak?_cons_append line.text_ne_nil] at none
    exact none

theorem proper_ofText (s : Text) : (ofText s).Proper := by
  induction s using lineBreak_induction with
  | nil => exact ⟨List.forall_mem_nil _, .nil⟩
  | lineBreak lineBreak s ih =>
    rw [ofText_lineBreak]
    exact ih.cons (Line.proper_empty lineBreak)
  | cons c s none ih =>
    rw [ofText_cons none]
    refine ih.push ?_
    rw [text_ofText]
    exact none

/-- A proper line at the beginning of a text is the first one that is cut off. -/
theorem ofText_line {line : Line} (proper : line.Proper) (s : Text) :
    ofText (line.text ++ s) = (ofText s).cons line := by
  obtain ⟨content, ending⟩ := line
  have unbroken : BreakFree (ending.text ++ s) content := proper.breakFree s
  rw [Line.text, List.append_assoc]
  clear proper
  induction unbroken with
  | nil => exact ofText_lineBreak ending s
  | cons none _ ih =>
    rw [List.cons_append, ofText_cons none, ih]
    rfl

theorem ofText_rest (h : BreakFree [] part) : ofText part = ⟨[], part⟩ := by
  induction h with
  | nil => rfl
  | cons none _ ih =>
    rw [List.append_nil] at none
    rw [ofText_cons none, ih]
    rfl

/-- The lines of a proper sheet are read back from its text. -/
theorem ofText_text {sheet : Sheet} (proper : sheet.Proper) : ofText sheet.text = sheet := by
  obtain ⟨lines, rest⟩ := sheet
  induction lines with
  | nil => exact ofText_rest proper.rest
  | cons line lines ih =>
    obtain ⟨first, later⟩ := List.forall_mem_cons.mp proper.lines
    have split : text ⟨line :: lines, rest⟩ = line.text ++ text ⟨lines, rest⟩ := by simp [text]
    rw [split, ofText_line first, ih ⟨later, proper.rest⟩]
    rfl

end Sheet

end BlankLines

end TokenForge

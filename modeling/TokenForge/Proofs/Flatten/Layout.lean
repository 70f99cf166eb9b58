import TokenForge.Proofs.Flatten.Sheet

/-!
# Runs of blank lines

A layout is the lines of a text by maximal runs of blank lines: the blank lines at the very
beginning, and then each line that is not blank with the blank lines behind it.  Every list of
lines has exactly one (`Layout.lines_ofLines`, `Layout.ofLines_lines`).

In the collapsed layout three or more blank lines behind a line are two, which end like that
line.  This goes for the first line of all too, whatever it is, so that a run at the very beginning
counts from its second line on.  Only blank lines are removed or replaced (`Thinned.collapsed`).
-/

namespace TokenForge

namespace BlankLines

/-! ## Layouts -/

/-- A line that is not blank and the blank lines behind it. -/
structure Paragraph where
  line : Line
  blanks : List Line
  solid : line.isBlank = false
  blank : ∀ other ∈ blanks, other.isBlank = true

/-- The lines of a paragraph. -/
def Paragraph.lines (paragraph : Paragraph) : List Line := paragraph.line :: paragraph.blanks

/-- Lines by their runs of blank lines. -/
structure Layout where
  /-- The blank lines at the beginning. -/
  opening : List Line
  paragraphs : List Paragraph
  blank : ∀ line ∈ opening, line.isBlank = true

namespace Layout

/-- The lines of a layout. -/
def lines (layout : Layout) : List Line :=
  layout.opening ++ layout.paragraphs.flatMap Paragraph.lines

/-- A layout with a line in front of it. -/
def cons (line : Line) (layout : Layout) : Layout :=
  if h : line.isBlank = true then
    { layout with
      opening := line :: layout.opening
      blank := List.forall_mem_cons.mpr ⟨h, layout.blank⟩ }
  else
    { opening := []
      paragraphs :=
        ⟨line, layout.opening, Bool.not_eq_true _ ▸ h, layout.blank⟩ :: layout.paragraphs
      blank := List.forall_mem_nil _ }

/-- The layout of some lines. -/
def ofLines (lines : List Line) : Layout := lines.foldr cons ⟨[], [], List.forall_mem_nil _⟩

theorem cons_blank {line : Line} (h : line.isBlank = true) (layout : Layout) :
    layout.cons line = ⟨line :: layout.opening, layout.paragraphs,
      List.forall_mem_cons.mpr ⟨h, layout.blank⟩⟩ := dif_pos h

theorem cons_solid {line : Line} (h : line.isBlank = false) (layout : Layout) :
    layout.cons line = ⟨[], ⟨line, layout.opening, h, layout.blank⟩ :: layout.paragraphs,
      List.forall_mem_nil _⟩ := dif_neg (by simp [h])

theorem ofLines_cons (line : Line) (lines : List Line) :
    ofLines (line :: lines) = (ofLines lines).cons line := rfl

theorem lines_cons (line : Line) (layout : Layout) :
    (layout.cons line).lines = line :: layout.lines := by
  cases h : line.isBlank with
  | true => simp [cons_blank h, lines]
  | false => simp [cons_solid h, lines, Paragraph.lines]

/-- The lines of a layout are those that it was made of. -/
theorem lines_ofLines (lines : List Line) : (ofLines lines).lines = lines := by
  induction lines with
  | nil => rfl
  | cons line lines ih => rw [ofLines_cons, lines_cons, ih]

theorem ofLines_blanks {blanks : List Line} (blank : ∀ line ∈ blanks, line.isBlank = true)
    {lines : List Line} {paragraphs : List Paragraph}
    (h : ofLines lines = ⟨[], paragraphs, List.forall_mem_nil _⟩) :
    ofLines (blanks ++ lines) = ⟨blanks, paragraphs, blank⟩ := by
  induction blanks with
  | nil => exact h
  | cons line blanks ih =>
    obtain ⟨first, later⟩ := List.forall_mem_cons.mp blank
    rw [List.cons_append, ofLines_cons, ih later, cons_blank first]

/-- A layout is read back from its lines: it is the only one that they have. -/
theorem ofLines_lines (layout : Layout) : ofLines layout.lines = layout := by
  obtain ⟨opening, paragraphs, blank⟩ := layout
  suffices behind : ofLines (paragraphs.flatMap Paragraph.lines) =
      ⟨[], paragraphs, List.forall_mem_nil _⟩ from ofLines_blanks blank behind
  clear blank
  induction paragraphs with
  | nil => rfl
  | cons paragraph paragraphs ih =>
    rw [List.flatMap_cons, Paragraph.lines, List.cons_append, ofLines_cons,
      ofLines_blanks paragraph.blank ih, cons_solid paragraph.solid]

end Layout

/-! ## Collapsed layouts -/

variable {p : Line → Prop} {blanks : List Line}

/-- What becomes of the blank lines behind a line that ends in `ending`. -/
def collapseRun (ending : LineBreak) (blanks : List Line) : List Line :=
  if 3 ≤ blanks.length then [⟨[], ending⟩, ⟨[], ending⟩] else blanks

theorem forall_mem_collapseRun (h : ∀ line ∈ blanks, p line) {ending : LineBreak}
    (empty : p ⟨[], ending⟩) : ∀ line ∈ collapseRun ending blanks, p line := by
  rw [collapseRun]
  split
  · simpa using empty
  · exact h

/-- What becomes of the blank lines at the beginning of a text.  The first one is the line in
front of the others. -/
def collapseOpening : List Line → List Line
  | [] => []
  | first :: blanks => first :: collapseRun first.ending blanks

theorem forall_mem_collapseOpening (h : ∀ line ∈ blanks, p line)
    (empty : ∀ ending, p ⟨[], ending⟩) : ∀ line ∈ collapseOpening blanks, p line := by
  cases blanks with
  | nil => exact h
  | cons first blanks =>
    obtain ⟨here, later⟩ := List.forall_mem_cons.mp h
    exact List.forall_mem_cons.mpr ⟨here, forall_mem_collapseRun later (empty _)⟩

/-- A paragraph whose run of blank lines is collapsed. -/
def Paragraph.collapsed (paragraph : Paragraph) : Paragraph where
  line := paragraph.line
  blanks := collapseRun paragraph.line.ending paragraph.blanks
  solid := paragraph.solid
  blank := forall_mem_collapseRun paragraph.blank rfl

/-- A layout whose runs of blank lines are collapsed. -/
def Layout.collapsed (layout : Layout) : Layout where
  opening := collapseOpening layout.opening
  paragraphs := layout.paragraphs.map Paragraph.collapsed
  blank := forall_mem_collapseOpening layout.blank fun _ => rfl

/-- What holds for all lines and for empty ones holds for the collapsed lines. -/
theorem Layout.forall_mem_collapsed {layout : Layout} (h : ∀ line ∈ layout.lines, p line)
    (empty : ∀ ending, p ⟨[], ending⟩) : ∀ line ∈ layout.collapsed.lines, p line := by
  obtain ⟨inOpening, inParagraphs⟩ := List.forall_mem_append.mp h
  refine List.forall_mem_append.mpr ⟨forall_mem_collapseOpening inOpening empty, ?_⟩
  rw [List.forall_mem_flatMap] at inParagraphs ⊢
  intro paragraph member
  obtain ⟨before, inside, rfl⟩ := List.mem_map.mp member
  obtain ⟨first, later⟩ := List.forall_mem_cons.mp (inParagraphs before inside)
  exact List.forall_mem_cons.mpr ⟨first, forall_mem_collapseRun later (empty _)⟩

/-! ## Lines that stay -/

/-- Lines of which blank ones may be missing or replaced by blank ones. -/
inductive Thinned : List Line → List Line → Prop where
  | nil : Thinned [] []
  | kept (line : Line) {lines left : List Line} : Thinned lines left →
      Thinned (line :: lines) (line :: left)
  | removed {line : Line} {lines left : List Line} : line.isBlank = true → Thinned lines left →
      Thinned (line :: lines) left
  | replaced {line other : Line} {lines left : List Line} : line.isBlank = true →
      other.isBlank = true → Thinned lines left → Thinned (line :: lines) (other :: left)

namespace Thinned

theorem refl : (lines : List Line) → Thinned lines lines
  | [] => .nil
  | line :: lines => .kept line (refl lines)

theorem append {lines left more kept : List Line} (first : Thinned lines left)
    (later : Thinned more kept) : Thinned (lines ++ more) (left ++ kept) := by
  induction first with
  | nil => exact later
  | kept line _ ih => exact .kept line ih
  | removed blank _ ih => exact .removed blank ih
  | replaced blank other _ ih => exact .replaced blank other ih

theorem blanks_nil (blank : ∀ line ∈ blanks, line.isBlank = true) : Thinned blanks [] := by
  induction blanks with
  | nil => exact .nil
  | cons line blanks ih =>
    obtain ⟨first, later⟩ := List.forall_mem_cons.mp blank
    exact .removed first (ih later)

theorem run (ending : LineBreak) (blank : ∀ line ∈ blanks, line.isBlank = true) :
    Thinned blanks (collapseRun ending blanks) := by
  rw [collapseRun]
  split
  · next many =>
    rcases blanks with _ | ⟨first, _ | ⟨second, blanks⟩⟩
    · cases many
    · simp at many
    · simp only [List.forall_mem_cons] at blank
      obtain ⟨one, two, others⟩ := blank
      exact .replaced one rfl (.replaced two rfl (blanks_nil others))
  · exact refl blanks

theorem paragraphs (paragraphs : List Paragraph) :
    Thinned (paragraphs.flatMap Paragraph.lines)
      ((paragraphs.map Paragraph.collapsed).flatMap Paragraph.lines) := by
  induction paragraphs with
  | nil => exact .nil
  | cons paragraph paragraphs ih =>
    rw [List.map_cons, List.flatMap_cons, List.flatMap_cons]
    exact append (.kept _ (run _ paragraph.blank)) ih

/-- Collapsing a layout removes and replaces blank lines only. -/
theorem collapsed (layout : Layout) : Thinned layout.lines layout.collapsed.lines := by
  obtain ⟨opening, paragraphs, blank⟩ := layout
  refine append ?_ (Thinned.paragraphs paragraphs)
  cases opening with
  | nil => exact .nil
  | cons first blanks => exact .kept first (run _ (List.forall_mem_cons.mp blank).2)

/-- The lines that are not blank are the same. -/
theorem solid {lines left : List Line} (h : Thinned lines left) :
    left.filter (!·.isBlank) = lines.filter (!·.isBlank) := by
  induction h with
  | nil => rfl
  | kept line _ ih => rw [List.filter_cons, List.filter_cons, ih]
  | removed blank _ ih => simpa [blank] using ih
  | replaced blank other _ ih => simpa [blank, other] using ih

end Thinned

end BlankLines

end TokenForge

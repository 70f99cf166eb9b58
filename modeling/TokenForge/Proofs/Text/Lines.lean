import TokenForge.Proofs.Text.Scan
import TokenForge.Text.Blank

/-!
# Lines

A text is cut into lines at its line feeds.  `Page` is a text given by its lines, which
may be of any type whose elements have texts: the lines of the body end in a line feed
and the last one does not.

`Reads` says that a recogniser treats a page line by line: it covers a line of a certain
kind, with its line feed, and hits nowhere in a line that is not of the kind.  The scan
of a page is then known (`Reads.pieces_text`).

A line of nothing but spaces, tabs and carriage returns is blank, and the others are the
`solidLines` of a text.
-/

namespace TokenForge

/-- An element of parts with a text between them is one of that text or of a part. -/
theorem mem_intercalate {α : Type} {sep : List α} {parts : List (List α)} {a : α}
    (h : a ∈ List.intercalate sep parts) : a ∈ sep ∨ ∃ part ∈ parts, a ∈ part := by
  induction parts with
  | nil => simp [List.intercalate] at h
  | cons part parts ih =>
    cases parts with
    | nil => exact .inr ⟨part, by simp, by simpa [List.intercalate] using h⟩
    | cons next parts =>
      rw [List.intercalate_cons_cons, List.mem_append, List.mem_append] at h
      rcases h with (first | between) | rest
      · exact .inr ⟨part, by simp, first⟩
      · exact .inl between
      · rcases ih rest with between | ⟨later, member, inside⟩
        · exact .inl between
        · exact .inr ⟨later, .tail _ member, inside⟩

namespace Text

/-! ## Cutting -/

theorem splitOn_append (sep : Char) (s rest : Text) :
    splitOn sep (s ++ sep :: rest) = splitOn sep s ++ splitOn sep rest := by
  induction s with
  | nil => simp [splitOn]
  | cons c s ih =>
    simp only [List.cons_append, splitOn]
    by_cases h : c = sep
    · simp [h, ih]
    · simp only [if_neg h, ih]
      cases hs : splitOn sep s with
      | nil => exact absurd hs (splitOn_ne_nil sep s)
      | cons piece pieces => rfl

theorem splitOn_of_not_mem {sep : Char} {s : Text} (h : sep ∉ s) : splitOn sep s = [s] := by
  induction s with
  | nil => rfl
  | cons c s ih =>
    simp only [List.mem_cons, not_or] at h
    simp [splitOn, Ne.symm h.1, ih h.2]

/-- The pieces of joined texts are those of each. -/
theorem splitOn_intercalate (sep : Char) {parts : List Text} (some_part : parts ≠ []) :
    splitOn sep (List.intercalate [sep] parts) = parts.flatMap (splitOn sep) := by
  induction parts with
  | nil => exact absurd rfl some_part
  | cons part parts ih =>
    cases parts with
    | nil => simp
    | cons next parts =>
      rw [List.intercalate_cons_cons, List.append_assoc, List.singleton_append, splitOn_append,
        ih (List.cons_ne_nil _ _)]
      rfl

/-- The first piece of a text goes on up to the separator. -/
theorem exists_splitOn_append {sep : Char} {s : Text} (h : sep ∉ s) (t : Text) :
    ∃ more pieces, splitOn sep (s ++ t) = (s ++ more) :: pieces := by
  induction s with
  | nil => exact List.exists_cons_of_ne_nil (splitOn_ne_nil sep t)
  | cons c s ih =>
    rw [List.mem_cons, not_or] at h
    obtain ⟨more, pieces, cut⟩ := ih h.2
    exact ⟨more, pieces, by simp [splitOn, Ne.symm h.1, cut]⟩

/-- A character of a text in two parts stands in the first or in the second. -/
theorem append_eq_append_cons {s t read left : Text} {c : Char} (h : s ++ t = read ++ c :: left) :
    (∃ rest, s = read ++ c :: rest ∧ left = rest ++ t) ∨
      ∃ more, read = s ++ more ∧ t = more ++ c :: left := by
  rcases List.append_eq_append_iff.mp h with ⟨more, before, behind⟩ | ⟨rest, before, behind⟩
  · exact .inr ⟨more, before, behind⟩
  · cases rest with
    | nil => exact .inr ⟨[], by simpa using before.symm, behind.symm⟩
    | cons d rest =>
      obtain ⟨rfl, same⟩ := List.cons.inj behind
      exact .inl ⟨rest, before, same⟩

/-! ## Terminated lines -/

/-- The text of lines each of which ends in a line feed. -/
def unlines (lines : List Text) : Text := lines.flatMap (· ++ ['\n'])

@[simp]
theorem unlines_nil : unlines [] = [] := rfl

@[simp]
theorem unlines_cons (line : Text) (lines : List Text) :
    unlines (line :: lines) = line ++ '\n' :: unlines lines := by simp [unlines]

@[simp]
theorem unlines_append (lines more : List Text) :
    unlines (lines ++ more) = unlines lines ++ unlines more := by simp [unlines]

/-- A text of terminated lines is cut like each of them. -/
theorem splitOn_unlines_eq (lines : List Text) :
    splitOn '\n' (unlines lines) = lines.flatMap (splitOn '\n') ++ [[]] := by
  induction lines with
  | nil => rfl
  | cons line lines ih =>
    rw [unlines_cons, splitOn_append, ih, List.flatMap_cons, List.append_assoc]

/-- Lines without line feeds can be read back from their text. -/
theorem splitOn_unlines {lines : List Text} (single : ∀ line ∈ lines, '\n' ∉ line) :
    splitOn '\n' (unlines lines) = lines ++ [[]] := by
  rw [splitOn_unlines_eq]
  congr 1
  induction lines with
  | nil => rfl
  | cons line lines ih =>
    rw [List.flatMap_cons, splitOn_of_not_mem (single line (.head _)),
      ih fun line member => single line (.tail _ member)]
    rfl

@[simp]
theorem charBefore_unlines (lines : List Text) :
    charBefore (some '\n') (unlines lines) = some '\n' := by
  induction lines with
  | nil => rfl
  | cons line lines ih => simp [ih]

/-- A character that is no line feed stands in one of the lines. -/
theorem exists_line_of_unlines_eq {lines : List Text} {read left : Text} {c : Char}
    (differ : c ≠ '\n') (h : unlines lines = read ++ c :: left) : ∃ line ∈ lines, ∃ before part rest after,
      line = part ++ c :: rest ∧ read = before ++ part ∧ left = rest ++ '\n' :: after := by
  induction lines generalizing read with
  | nil => simp at h
  | cons line lines ih =>
    rw [unlines_cons] at h
    rcases append_eq_append_cons h with ⟨rest, here, behind⟩ | ⟨skipped, rfl, later⟩
    · exact ⟨line, .head _, [], read, rest, unlines lines, here, rfl, behind⟩
    · cases skipped with
      | nil => exact absurd (List.cons.inj later).1.symm differ
      | cons d skipped =>
        obtain ⟨rfl, next⟩ := List.cons.inj later
        obtain ⟨found, member, before, part, rest, after, inside, rfl, behind⟩ := ih next
        exact ⟨found, .tail _ member, line ++ '\n' :: before, part, rest, after, inside, by simp,
          behind⟩

/-- At the beginning of a line the lines from that one on are left. -/
theorem exists_lines_of_atLineStart {lines : List Text} (single : ∀ line ∈ lines, '\n' ∉ line)
    {read left : Text} (h : unlines lines = read ++ left)
    (start : atLineStart (charBefore (some '\n') read) = true) :
    ∃ before after, lines = before ++ after ∧ left = unlines after := by
  induction lines generalizing read with
  | nil => exact ⟨[], [], rfl, (List.append_eq_nil_iff.mp h.symm).2⟩
  | cons line lines ih =>
    -- Behind a part of a line the character before is one of the line, and no line feed.
    have unread : ∀ more, line = read ++ more → read = [] := by
      intro more split
      by_cases empty : read = []
      · exact empty
      · obtain ⟨c, member, last⟩ := charBefore_mem (some '\n') empty
        rw [last] at start
        have feed : c = '\n' := by simpa [atLineStart] using start
        have inside : '\n' ∈ line := by
          rw [split]
          exact List.mem_append_left _ (feed ▸ member)
        exact absurd inside (single line (.head _))
    rw [unlines_cons] at h
    rcases List.append_eq_append_iff.mp h with ⟨skipped, rest, later⟩ | ⟨more, split, here⟩
    · cases skipped with
      | nil =>
        rw [List.append_nil] at rest
        obtain rfl := unread [] (by simp [rest])
        exact ⟨[], line :: lines, rfl, by rw [unlines_cons, ← rest]; exact later.symm⟩
      | cons d skipped =>
        obtain ⟨rfl, next⟩ := List.cons.inj later
        have nextStart : atLineStart (charBefore (some '\n') skipped) = true := by
          rw [rest] at start
          simpa using start
        obtain ⟨before, after, rfl, behind⟩ :=
          ih (fun line member => single line (.tail _ member)) next nextStart
        exact ⟨line :: before, after, rfl, behind⟩
    · obtain rfl := unread more split
      exact ⟨[], line :: lines, rfl, by rw [unlines_cons, split]; exact here⟩

/-! ## Solid lines -/

/-- Whether a line has nothing but spaces, tabs and carriage returns. -/
def isBlankLine (line : Text) : Bool := line.all fun c => isSpaceOrTab c || c == '\r'

/-- The lines of a text that are not blank. -/
def solidLines (s : Text) : List Text := (splitOn '\n' s).filter (!isBlankLine ·)

theorem solidLines_append (s rest : Text) :
    solidLines (s ++ '\n' :: rest) = solidLines s ++ solidLines rest := by
  rw [solidLines, splitOn_append, List.filter_append]
  rfl

theorem solidLines_of_isBlankLine {line : Text} (h : isBlankLine line = true) :
    solidLines line = [] := by
  have single : '\n' ∉ line := by
    intro member
    have := List.all_eq_true.mp h _ member
    exact absurd this (by decide)
  simp [solidLines, splitOn_of_not_mem single, h]

end Text

/-! ## Pages -/

/-- A text by lines. -/
structure Page (α : Type) where
  /-- The lines that end in a line feed. -/
  body : List α
  /-- What follows the last line feed. -/
  last : α

namespace Page

variable {α β : Type}

/-- All lines of a page. -/
def lines (page : Page α) : List α := page.body ++ [page.last]

/-- The text of a page whose lines have texts. -/
def text (line : α → Text) (page : Page α) : Text :=
  (page.body.flatMap fun l => line l ++ ['\n']) ++ line page.last

@[simp]
theorem text_nil (line : α → Text) (last : α) : (Page.mk [] last).text line = line last := rfl

@[simp]
theorem text_cons (line : α → Text) (l : α) (body : List α) (last : α) :
    (Page.mk (l :: body) last).text line = line l ++ '\n' :: (Page.mk body last).text line := by
  simp [text]

/-- A page is cut at its line feeds into its lines. -/
theorem splitOn_text {line : α → Text} (h : ∀ l, '\n' ∉ line l) (page : Page α) :
    Text.splitOn '\n' (page.text line) = page.lines.map line := by
  obtain ⟨body, last⟩ := page
  induction body with
  | nil => simp [lines, Text.splitOn_of_not_mem (h last)]
  | cons l body ih =>
    rw [text_cons, Text.splitOn_append, Text.splitOn_of_not_mem (h l), ih]
    rfl

/-- A text all of whose lines are texts of some `α` is a page of them. -/
theorem exists_text_eq {line : α → Text} {s : Text}
    (h : ∀ piece ∈ Text.splitOn '\n' s, ∃ l, line l = piece) :
    ∃ page : Page α, page.text line = s := by
  rw [← Text.intercalate_splitOn '\n' s]
  have some_line := Text.splitOn_ne_nil '\n' s
  generalize Text.splitOn '\n' s = pieces at h some_line
  induction pieces with
  | nil => exact absurd rfl some_line
  | cons piece pieces ih =>
    obtain ⟨l, rfl⟩ := h piece (by simp)
    cases pieces with
    | nil => exact ⟨⟨[], l⟩, by simp [List.intercalate]⟩
    | cons next pieces =>
      obtain ⟨⟨body, last⟩, same⟩ := ih (fun piece member => h piece (.tail _ member)) (by simp)
      refine ⟨⟨l :: body, last⟩, ?_⟩
      rw [text_cons, same]
      simp [List.intercalate]

/-- The lines of a page that are not blank. -/
def solid (line : α → Text) (page : Page α) : List α :=
  page.lines.filter fun l => !Text.isBlankLine (line l)

theorem solid_nil (line : α → Text) (last : α) : (Page.mk [] last).solid line =
    if Text.isBlankLine (line last) then [] else [last] := by
  cases h : Text.isBlankLine (line last) <;> simp [solid, lines, List.filter, h]

theorem solid_cons (line : α → Text) (l : α) (body : List α) (last : α) :
    (Page.mk (l :: body) last).solid line =
      if Text.isBlankLine (line l) then (Page.mk body last).solid line
      else l :: (Page.mk body last).solid line := by
  cases h : Text.isBlankLine (line l) <;> simp [solid, lines, List.filter, h]

/-- A page followed by a line feed and another. -/
theorem text_append (line : α → Text) (page : Page α) (body : List α) (last : α) :
    (Page.mk (page.lines ++ body) last).text line =
      page.text line ++ '\n' :: (Page.mk body last).text line := by
  simp [text, lines]

theorem solid_append (line : α → Text) (page : Page α) (body : List α) (last : α) :
    (Page.mk (page.lines ++ body) last).solid line =
      page.solid line ++ (Page.mk body last).solid line := by
  rw [solid, lines, List.append_assoc, List.filter_append]
  rfl

theorem solidLines_text {line : α → Text} (h : ∀ l, '\n' ∉ line l) (page : Page α) :
    Text.solidLines (page.text line) = (page.solid line).map line := by
  rw [Text.solidLines, splitOn_text h, List.filter_map]
  rfl

/-- A page with some of its lines only.  An empty line stands in the place of the last one. -/
def keep (empty : α) (p : α → Bool) (page : Page α) : Page α where
  body := page.body.filter p
  last := if p page.last then page.last else empty

theorem solid_keep {line : α → Text} {empty : α} (h : line empty = []) (p : α → Bool)
    (page : Page α) : (page.keep empty p).solid line = (page.solid line).filter p := by
  obtain ⟨body, last⟩ := page
  simp only [solid, lines, keep, List.filter_append, List.filter_filter, Bool.and_comm]
  congr 1
  cases hp : p last <;> simp [List.filter, h, hp, Text.isBlankLine]

/-- What stands behind a line of some page: nothing, or a line feed and a page. -/
inductive Tail (line : α → Text) : Text → Prop where
  | last : Tail line []
  | more (page : Page α) : Tail line ('\n' :: page.text line)

end Page

/-! ## Reading line by line -/

/-- The pieces of a line, with the line feed if it has one. -/
def linePieces {β : Type} : Option β → Text → List (Piece β)
  | none, covered => covered.map .char
  | some a, covered => [.hit a covered]

/-- A recogniser treats pages line by line.  `kind` tells what it finds in a line. -/
structure Reads {α β : Type} (find : Recogniser β) (line : α → Text) (kind : α → Option β) :
    Prop where
  /-- A line of the kind is covered with its line feed. -/
  takes : ∀ {l : α} {a : β} {before : Option Char} {tail : Text}, kind l = some a →
    atLineStart before = true → Page.Tail line tail →
      find before (line l ++ tail) = some (a, tail.drop 1)
  /-- Nowhere in another line, nor at its line feed, is anything found. -/
  passes : ∀ {l : α} {before : Option Char} {read left tail : Text}, kind l = none →
    line l = read ++ left → atLineStart before = true → Page.Tail line tail →
      find (Text.charBefore before read) (left ++ tail) = none
  /-- A line of the kind is not empty. -/
  nonempty : ∀ {l : α} {a : β}, kind l = some a → line l ≠ []

namespace Reads

variable {α β : Type} {find : Recogniser β} {line : α → Text} {kind : α → Option β}

/-- A recogniser that finds something at the beginning of a line only treats pages line by line if
it does so for one line. -/
theorem of_lineStart (starts : ∀ before s, find before s =
      if atLineStart before then find none s else none)
    (single : ∀ l, '\n' ∉ line l)
    (takes : ∀ {l a tail}, kind l = some a → Page.Tail line tail →
      find none (line l ++ tail) = some (a, tail.drop 1))
    (passes : ∀ {l tail}, kind l = none → Page.Tail line tail → find none (line l ++ tail) = none)
    (nonempty : ∀ {l a}, kind l = some a → line l ≠ []) : Reads find line kind where
  takes {l a before tail} hk start follows := by rw [starts, if_pos start, takes hk follows]
  passes {l before read left tail} hk split start follows := by
    rw [starts]
    split
    · next here =>
      -- Inside the line the character before is no line feed.
      have empty : read = [] := by
        by_cases empty : read = []
        · exact empty
        · obtain ⟨c, member, same⟩ := Text.charBefore_mem before empty
          rw [same] at here
          have : c = '\n' := by simpa [atLineStart] using here
          subst this
          exact absurd (by simp [split, member]) (single l)
      subst empty
      rw [List.nil_append] at split
      rw [← split, passes hk follows]
    · rfl
  nonempty := nonempty

/-- The pieces of a text that begins with a line. -/
theorem piecesFrom_line (h : Reads find line kind) {before : Option Char}
    (start : atLineStart before = true) (l : α) (page : Page α) :
    Text.piecesFrom find 0 before (line l ++ '\n' :: page.text line) =
      linePieces (kind l) (line l ++ ['\n']) ++
        Text.piecesFrom find 0 (some '\n') (page.text line) := by
  cases hk : kind l with
  | some a =>
    have hit := h.takes hk start (.more page)
    have split : line l ++ '\n' :: page.text line = (line l ++ ['\n']) ++ page.text line := by simp
    rw [split] at hit ⊢
    rw [Text.piecesFrom_hit hit (by simp)]
    simp [linePieces]
  | none =>
    exact Text.piecesFrom_quietLine fun read left whole => h.passes hk whole start (.more page)

theorem piecesFrom_last (h : Reads find line kind) {before : Option Char}
    (start : atLineStart before = true) (l : α) :
    Text.piecesFrom find 0 before (line l) = linePieces (kind l) (line l) := by
  cases hk : kind l with
  | some a =>
    have hit := h.takes hk start .last
    have := Text.piecesFrom_hit hit (h.nonempty hk)
    simpa [Text.piecesFrom, linePieces] using this
  | none =>
    have quiet : ∀ read left, line l = read ++ left → left ≠ [] →
        find (Text.charBefore before read) (left ++ []) = none := fun read left whole _ =>
      h.passes hk whole start .last
    simpa [Text.piecesFrom, linePieces] using Text.piecesFrom_quiet quiet

/-- The pieces of a page are those of its lines. -/
theorem pieces_text (h : Reads find line kind) (page : Page α) :
    Text.pieces find (page.text line) =
      (page.body.flatMap fun l => linePieces (kind l) (line l ++ ['\n'])) ++
        linePieces (kind page.last) (line page.last) := by
  obtain ⟨body, last⟩ := page
  rw [Text.pieces]
  generalize hb : (none : Option Char) = before
  have start : atLineStart before = true := by rw [← hb]; rfl
  clear hb
  induction body generalizing before with
  | nil => simp [h.piecesFrom_last start]
  | cons l body ih =>
    rw [Page.text_cons, h.piecesFrom_line start, ih (some '\n') rfl]
    simp

/-- What is found in a page is found in its lines. -/
theorem hits_text (h : Reads find line kind) (page : Page α) :
    Text.hits find (page.text line) = page.lines.filterMap kind := by
  have inLine : ∀ l s, (linePieces (kind l) s).filterMap Piece.found? = (kind l).toList := by
    intro l s
    cases kind l with
    | none => exact Text.found_chars s
    | some a => rfl
  obtain ⟨body, last⟩ := page
  rw [Text.hits, h.pieces_text, List.filterMap_append, inLine, Page.lines, List.filterMap_append]
  congr 1
  · induction body with
    | nil => rfl
    | cons l body ih =>
      rw [List.flatMap_cons, List.filterMap_append, inLine, ih, List.filterMap_cons]
      cases kind l <;> rfl

/-- Without what is found a page has the other lines. -/
theorem remove_text (h : Reads find line kind) {empty : α} (none : line empty = [])
    (page : Page α) : Text.remove find (page.text line) =
      (page.keep empty fun l => (kind l).isNone).text line := by
  have removed : ∀ l s, (linePieces (kind l) s).flatMap (Text.replacePiece fun _ => []) =
      if (kind l).isNone then s else [] := by
    intro l s
    cases kind l <;> simp [linePieces, Text.replacePiece, List.flatMap_map]
  obtain ⟨body, last⟩ := page
  rw [Text.remove, Text.replace_eq, h.pieces_text, List.flatMap_append, removed]
  simp only [Page.text, Page.keep]
  congr 1
  · rw [List.flatMap_assoc]
    induction body with
    | nil => rfl
    | cons l body ih =>
      rw [List.flatMap_cons, removed, ih]
      cases hk : (kind l).isNone <;> simp [List.filter, hk]
  · split
    · rfl
    · exact none.symm

end Reads

end TokenForge

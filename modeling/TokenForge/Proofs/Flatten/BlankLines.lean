import TokenForge.Flatten.BlankLines
import TokenForge.Proofs.Text.Lines

/-!
# Collapsing blank lines

Only blank lines disappear when runs of them are collapsed: whatever a text is, its solid
lines stay as they are (`solidLines_collapseBlankLines`).  A run begins with the line
break of a line that stays, which is why every step is stated for a text with something
in front of it.

A text is read along its line breaks (`lineBreak_induction`) or along the blank lines at its
beginning (`blankLines_induction`).  What the scans do at a line break and at any other
character is said once for each, and what is proved of them rests on these equations.

A collapsed text is `Settled`: it holds no run, so that collapsing it again does nothing
(`collapseBlankLines_collapseBlankLines`).  The invariant of the scan is that what is
collapsed begins with the same character and with no more blank lines.
-/

namespace TokenForge

namespace BlankLines

open Text (solidLines solidLines_append solidLines_of_isBlankLine Anchored piecesFrom
  piecesFrom_hit piecesFrom_miss replacePiece replace_eq scan_induction)

/-! ## Line breaks -/

theorem takeBreak?_eq_some {s rest : Text} {lineBreak : LineBreak}
    (h : takeBreak? s = some (lineBreak, rest)) : s = lineBreak.text ++ rest := by
  unfold takeBreak? at h
  split at h
  · cases h
    rfl
  · cases h
    rfl
  · cases h

theorem takeBreak?_lineBreak (lineBreak : LineBreak) (s : Text) :
    takeBreak? (lineBreak.text ++ s) = some (lineBreak, s) := by
  cases lineBreak <;> rfl

theorem takeBreak?_cons_eq_none_iff {c : Char} {s : Text} :
    takeBreak? (c :: s) = none ↔ c ≠ '\n' ∧ (c = '\r' → s.head? ≠ some '\n') := by
  constructor
  · intro none
    refine ⟨?_, ?_⟩
    · rintro rfl
      cases none
    · rintro rfl feed
      obtain ⟨s, rfl⟩ := List.head?_eq_some_iff.mp feed
      cases none
  · rintro ⟨other, alone⟩
    unfold takeBreak?
    split
    · next same => exact absurd (List.cons.inj same).1 other
    · next same =>
      obtain ⟨rfl, rfl⟩ := List.cons.inj same
      exact absurd rfl (alone rfl)
    · rfl

/-- Where no line break begins there is no carriage return with a line feed behind it. -/
theorem ne_crlf_of_takeBreak? {c : Char} {s : Text} (none : takeBreak? (c :: s) = none)
    (rest : Text) : c = '\r' → s ≠ '\n' :: rest := by
  rintro rfl rfl
  cases none

theorem takeBreak?_space {c : Char} (space : isSpaceOrTab c = true) (s : Text) :
    takeBreak? (c :: s) = none := by
  refine takeBreak?_cons_eq_none_iff.mpr ⟨?_, ?_⟩
  · rintro rfl
    cases space
  · rintro rfl
    cases space

/-- Reads a text line break by line break, and character by character between them. -/
theorem lineBreak_induction {motive : Text → Prop} (nil : motive [])
    (lineBreak : ∀ (lineBreak : LineBreak) s, motive s → motive (lineBreak.text ++ s))
    (cons : ∀ c s, takeBreak? (c :: s) = none → motive s → motive (c :: s)) (s : Text) :
    motive s := by
  induction length : s.length using Nat.strongRecOn generalizing s with
  | ind n ih =>
    subst length
    cases s with
    | nil => exact nil
    | cons c s =>
      cases taken : takeBreak? (c :: s) with
      | none => exact cons c s taken (ih _ (Nat.lt_succ_self _) s rfl)
      | some found =>
        obtain ⟨found, rest⟩ := found
        rw [takeBreak?_eq_some taken] at ih ⊢
        refine lineBreak found rest (ih _ ?_ rest rfl)
        rw [List.length_append]
        exact Nat.lt_add_of_pos_left (by cases found <;> decide)

/-- The lines before and after a line break.  A carriage return stays with the line before. -/
theorem solidLines_lineBreak (lineBreak : LineBreak) (s rest : Text) :
    solidLines (s ++ (lineBreak.text ++ rest)) =
      solidLines (s ++ lineBreak.text.dropLast) ++ solidLines rest := by
  cases lineBreak with
  | lf => simpa [LineBreak.text] using solidLines_append s rest
  | crlf => simpa [LineBreak.text] using solidLines_append (s ++ ['\r']) rest

/-- A line of spaces and tabs in front of a text is not solid. -/
theorem solidLines_blank {read : Text} (blank : ∀ c ∈ read, isSpaceOrTab c = true)
    (lineBreak : LineBreak) (rest : Text) :
    solidLines (read ++ (lineBreak.text ++ rest)) = solidLines rest := by
  rw [solidLines_lineBreak, solidLines_of_isBlankLine, List.nil_append]
  refine List.all_eq_true.mpr fun c member => ?_
  rcases List.mem_append.mp member with member | member
  · simp [blank c member]
  · cases lineBreak with
    | lf => cases member
    | crlf => simp [List.mem_singleton.mp member]

theorem solidLines_lineBreak_start (lineBreak : LineBreak) (rest : Text) :
    solidLines (lineBreak.text ++ rest) = solidLines rest :=
  solidLines_blank (List.forall_mem_nil _) lineBreak rest

/-! ## Counting blank lines -/

/-- The number of blank lines at the beginning of a text. -/
def blankLines : Text → Nat
  | [] => 0
  | '\n' :: s => blankLines s + 1
  | '\r' :: '\n' :: s => blankLines s + 1
  | c :: s => if isSpaceOrTab c then blankLines s else 0

theorem blankLines_lineBreak (lineBreak : LineBreak) (s : Text) :
    blankLines (lineBreak.text ++ s) = blankLines s + 1 := by
  cases lineBreak <;> rfl

theorem blankLines_cons {c : Char} {s : Text} (none : takeBreak? (c :: s) = none) :
    blankLines (c :: s) = if isSpaceOrTab c then blankLines s else 0 :=
  blankLines.eq_4 c s (takeBreak?_cons_eq_none_iff.mp none).1 (ne_crlf_of_takeBreak? none)

theorem blankLines_space {c : Char} (space : isSpaceOrTab c = true) (s : Text) :
    blankLines (c :: s) = blankLines s := by
  rw [blankLines_cons (takeBreak?_space space s), if_pos space]

theorem blankLines_spaces {read : Text} (blank : ∀ c ∈ read, isSpaceOrTab c = true) (s : Text) :
    blankLines (read ++ s) = blankLines s := by
  induction read with
  | nil => rfl
  | cons c read ih =>
    obtain ⟨space, later⟩ := List.forall_mem_cons.mp blank
    rw [List.cons_append, blankLines_space space, ih later]

theorem blankLines_line {read : Text} (blank : ∀ c ∈ read, isSpaceOrTab c = true)
    (lineBreak : LineBreak) (s : Text) :
    blankLines (read ++ (lineBreak.text ++ s)) = blankLines s + 1 := by
  rw [blankLines_spaces blank, blankLines_lineBreak]

/-- Where a blank line begins there are spaces and tabs and a line break. -/
theorem exists_line_of_blankLines_pos {s : Text} (h : 0 < blankLines s) :
    ∃ (read : Text) (lineBreak : LineBreak) (rest : Text),
      (∀ c ∈ read, isSpaceOrTab c = true) ∧ s = read ++ (lineBreak.text ++ rest) := by
  induction s with
  | nil => cases h
  | cons c s ih =>
    cases taken : takeBreak? (c :: s) with
    | some found => exact ⟨[], found.1, found.2, List.forall_mem_nil _, takeBreak?_eq_some taken⟩
    | none =>
      rw [blankLines_cons taken] at h
      split at h
      · next space =>
        obtain ⟨read, lineBreak, rest, blank, rfl⟩ := ih h
        exact ⟨c :: read, lineBreak, rest, List.forall_mem_cons.mpr ⟨space, blank⟩, rfl⟩
      · cases h

/-- Reads a text blank line by blank line. -/
theorem blankLines_induction {motive : Text → Prop} (none : ∀ s, blankLines s = 0 → motive s)
    (line : ∀ read (lineBreak : LineBreak) s, (∀ c ∈ read, isSpaceOrTab c = true) → motive s →
      motive (read ++ (lineBreak.text ++ s))) (s : Text) : motive s := by
  induction count : blankLines s generalizing s with
  | zero => exact none s count
  | succ n ih =>
    obtain ⟨read, lineBreak, rest, blank, rfl⟩ := exists_line_of_blankLines_pos (s := s) (by omega)
    rw [blankLines_line blank] at count
    exact line read lineBreak rest blank (ih rest (Nat.succ.inj count))

/-! ## Dropping blank lines -/

theorem dropBlankLines_lineBreak (lineBreak : LineBreak) (count : Nat) (line s : Text) :
    dropBlankLines count line (lineBreak.text ++ s) = dropBlankLines (count + 1) s s := by
  cases lineBreak <;> rfl

theorem dropBlankLines_cons {c : Char} {s : Text} (none : takeBreak? (c :: s) = none) (count : Nat)
    (line : Text) :
    dropBlankLines count line (c :: s) =
      if isSpaceOrTab c then dropBlankLines count line s else (count, line) :=
  dropBlankLines.eq_4 count line c s (takeBreak?_cons_eq_none_iff.mp none).1
    (ne_crlf_of_takeBreak? none)

theorem dropBlankLines_spaces {read : Text} (blank : ∀ c ∈ read, isSpaceOrTab c = true)
    (count : Nat) (line s : Text) :
    dropBlankLines count line (read ++ s) = dropBlankLines count line s := by
  induction read with
  | nil => rfl
  | cons c read ih =>
    obtain ⟨space, later⟩ := List.forall_mem_cons.mp blank
    rw [List.cons_append, dropBlankLines_cons (takeBreak?_space space _), if_pos space, ih later]

/-- A blank line is counted and dropped, and the next line is the current one. -/
theorem dropBlankLines_line {read : Text} (blank : ∀ c ∈ read, isSpaceOrTab c = true)
    (lineBreak : LineBreak) (count : Nat) (line s : Text) :
    dropBlankLines count line (read ++ (lineBreak.text ++ s)) = dropBlankLines (count + 1) s s := by
  rw [dropBlankLines_spaces blank, dropBlankLines_lineBreak]

/-- Without a blank line the current line is left as it is. -/
theorem dropBlankLines_of_blankLines_eq_zero {s : Text} (h : blankLines s = 0) (count : Nat)
    (line : Text) : dropBlankLines count line s = (count, line) := by
  induction s with
  | nil => rfl
  | cons c s ih =>
    cases taken : takeBreak? (c :: s) with
    | some found =>
      rw [takeBreak?_eq_some taken, blankLines_lineBreak] at h
      cases h
    | none =>
      rw [blankLines_cons taken] at h
      rw [dropBlankLines_cons taken]
      split
      · next space =>
        rw [if_pos space] at h
        exact ih h
      · rfl

theorem dropBlankLines_count (count : Nat) (line s : Text) :
    (dropBlankLines count line s).1 = count + blankLines s := by
  induction s using blankLines_induction generalizing count line with
  | none s none => rw [dropBlankLines_of_blankLines_eq_zero none, none, Nat.add_zero]
  | line read lineBreak s blank ih =>
    rw [dropBlankLines_line blank, ih, blankLines_line blank]
    omega

/-- Dropping blank lines keeps the solid lines. -/
theorem solidLines_dropBlankLines (count : Nat) (s : Text) :
    (dropBlankLines count s s).2 <:+ s ∧
      solidLines (dropBlankLines count s s).2 = solidLines s := by
  induction s using blankLines_induction generalizing count with
  | none s none =>
    rw [dropBlankLines_of_blankLines_eq_zero none]
    exact ⟨List.suffix_refl _, rfl⟩
  | line read lineBreak s blank ih =>
    obtain ⟨suffix, same⟩ := ih (count + 1)
    rw [dropBlankLines_line blank]
    refine ⟨suffix.trans ⟨read ++ lineBreak.text, by simp⟩, ?_⟩
    rw [same, solidLines_blank blank]

/-- No blank line is left. -/
theorem blankLines_dropBlankLines (count : Nat) (s : Text) :
    blankLines (dropBlankLines count s s).2 = 0 := by
  induction s using blankLines_induction generalizing count with
  | none s none =>
    rw [dropBlankLines_of_blankLines_eq_zero none]
    exact none
  | line read lineBreak s blank ih =>
    rw [dropBlankLines_line blank]
    exact ih (count + 1)

/-! ## Runs -/

theorem run_eq (before : Option Char) (s : Text) :
    run before s = (takeBreak? s).bind fun taken =>
      if 3 ≤ blankLines taken.2 then some (taken.1, (dropBlankLines 0 taken.2 taken.2).2)
      else none := by
  simp only [run, Option.bind_eq_bind]
  congr 1
  funext ⟨lineBreak, after⟩
  have count := dropBlankLines_count 0 after after
  rw [Nat.zero_add] at count
  simp only [← count]
  rcases dropBlankLines 0 after after with ⟨_ | _ | _ | n, rest⟩
  · rfl
  · rfl
  · rfl
  · have many : 3 ≤ n + 1 + 1 + 1 := by omega
    simp [many]

/-- A run is a line break and three or more blank lines, behind which no blank line is left; and
the solid lines stay when three line breaks take its place. -/
theorem run_eq_some {before : Option Char} {s rest : Text} {lineBreak : LineBreak}
    (h : run before s = some (lineBreak, rest)) :
    (∃ blank, s = lineBreak.text ++ (blank ++ rest) ∧ 3 ≤ blankLines (blank ++ rest)) ∧
      blankLines rest = 0 ∧
      ∀ front, solidLines (front ++ s) =
        solidLines (front ++ (lineBreak.text ++ lineBreak.text ++ lineBreak.text ++ rest)) := by
  rw [run_eq, Option.bind_eq_some_iff] at h
  obtain ⟨⟨found, after⟩, taken, h⟩ := h
  rw [Option.ite_none_right_eq_some] at h
  obtain ⟨many, same⟩ := h
  obtain ⟨rfl, rfl⟩ := Prod.mk.inj (Option.some.inj same)
  have split := takeBreak?_eq_some taken
  obtain ⟨⟨blank, whole⟩, solid⟩ := solidLines_dropBlankLines 0 after
  refine ⟨⟨blank, by rw [split, whole], whole.symm ▸ many⟩, blankLines_dropBlankLines 0 after,
    fun front => ?_⟩
  rw [split, solidLines_lineBreak, ← solid, List.append_assoc, List.append_assoc,
    solidLines_lineBreak, solidLines_lineBreak_start, solidLines_lineBreak_start]

theorem run_anchored : Anchored (fun _ => true) run := by
  intro before s lineBreak rest h
  obtain ⟨⟨blank, split, _⟩, _⟩ := run_eq_some h
  refine ⟨rfl, lineBreak.text ++ blank, ?_, by rw [split, List.append_assoc]⟩
  cases lineBreak <;> simp [LineBreak.text]

theorem run_eq_none_iff {before : Option Char} {s : Text} :
    run before s = none ↔
      ∀ (lineBreak : LineBreak) after, s = lineBreak.text ++ after → blankLines after ≤ 2 := by
  rw [run_eq, Option.bind_eq_none_iff]
  constructor
  · rintro none lineBreak after rfl
    have few := none _ (takeBreak?_lineBreak lineBreak after)
    simp only [ite_eq_right_iff, reduceCtorEq, imp_false] at few
    omega
  · rintro few ⟨lineBreak, after⟩ taken
    have := few lineBreak after (takeBreak?_eq_some taken)
    exact if_neg (Nat.not_le_of_lt (Nat.lt_succ_of_le this))

/-- A line break with at most two blank lines behind it begins no run. -/
theorem run_lineBreak (before : Option Char) (lineBreak : LineBreak) {s : Text}
    (few : blankLines s ≤ 2) : run before (lineBreak.text ++ s) = none := by
  rw [run_eq, takeBreak?_lineBreak, Option.bind_some]
  exact if_neg (Nat.not_le_of_lt (Nat.lt_succ_of_le few))

/-! ## Collapsing again -/

/-- A text holds no run. -/
def Settled (s : Text) : Prop := ∀ before left, left <:+ s → run before left = none

theorem settled_nil : Settled [] := by
  intro before left suffix
  rw [List.suffix_nil.mp suffix]
  rfl

theorem settled_cons {c : Char} {s : Text} (here : ∀ before, run before (c :: s) = none)
    (h : Settled s) : Settled (c :: s) := by
  intro before left suffix
  rcases List.suffix_cons_iff.mp suffix with rfl | later
  · exact here before
  · exact h before left later

/-- A line break may stand before a settled text with at most two blank lines. -/
theorem settled_lineBreak (lineBreak : LineBreak) {s : Text} (h : Settled s)
    (few : blankLines s ≤ 2) : Settled (lineBreak.text ++ s) := by
  have feed : Settled ('\n' :: s) := settled_cons (fun before => run_lineBreak before .lf few) h
  cases lineBreak with
  | lf => exact feed
  | crlf => exact settled_cons (fun before => run_lineBreak before .crlf few) feed

/-- What a text becomes when its runs are collapsed. -/
structure Collapsed (s t : Text) : Prop where
  settled : Settled t
  head : t.head? = s.head?
  fewer : blankLines t ≤ blankLines s

/-- The character before a collapsed text stays, if no run begins there. -/
theorem Collapsed.cons {before : Option Char} {c : Char} {s t : Text} (h : Collapsed s t)
    (none : run before (c :: s) = none) : Collapsed (c :: s) (c :: t) where
  settled := by
    refine settled_cons (fun _ => run_eq_none_iff.mpr ?_) h.settled
    rintro (_ | _) after split
    · cases split
      exact Nat.le_trans h.fewer (run_eq_none_iff.mp none .lf s rfl)
    · cases split
      obtain ⟨s, rfl⟩ : ∃ rest, s = '\n' :: rest := List.head?_eq_some_iff.mp h.head.symm
      have few := run_eq_none_iff.mp none .crlf s rfl
      have fewer : blankLines after + 1 ≤ blankLines s + 1 := h.fewer
      omega
  head := rfl
  fewer := by
    have fewer := h.fewer
    cases taken : takeBreak? (c :: s) with
    | none =>
      -- A line break begins in both texts or in none, as their next characters are the same.
      have same : takeBreak? (c :: t) = .none := by
        rw [takeBreak?_cons_eq_none_iff, h.head]
        exact takeBreak?_cons_eq_none_iff.mp taken
      rw [blankLines_cons taken, blankLines_cons same]
      split
      · exact fewer
      · exact Nat.le_refl 0
    | some found =>
      obtain ⟨_ | _, rest⟩ := found
      · obtain ⟨rfl, rfl⟩ := List.cons.inj (takeBreak?_eq_some taken)
        exact Nat.succ_le_succ fewer
      · obtain ⟨rfl, rfl⟩ := List.cons.inj (takeBreak?_eq_some taken)
        obtain ⟨t, rfl⟩ := List.head?_eq_some_iff.mp h.head
        exact fewer

theorem Collapsed.run {before : Option Char} {lineBreak : LineBreak} {s rest t : Text}
    (hit : run before s = some (lineBreak, rest)) (h : Collapsed rest t) :
    Collapsed s (lineBreak.text ++ lineBreak.text ++ lineBreak.text ++ t) := by
  obtain ⟨⟨blank, rfl, many⟩, none, _⟩ := run_eq_some hit
  have last : blankLines t ≤ 0 := none ▸ h.fewer
  simp only [List.append_assoc]
  constructor
  case settled =>
    refine settled_lineBreak _ (settled_lineBreak _ (settled_lineBreak _ h.settled ?_) ?_) ?_
    · omega
    · rw [blankLines_lineBreak]
      omega
    · rw [blankLines_lineBreak, blankLines_lineBreak]
      omega
  case head => cases lineBreak <;> rfl
  case fewer =>
    simp only [blankLines_lineBreak]
    omega

end BlankLines

section Collapsing

open Text BlankLines

theorem collapsed_piecesFrom (before : Option Char) (s : Text) :
    Collapsed s ((piecesFrom run 0 before s).flatMap
      (replacePiece fun b => b.text ++ b.text ++ b.text)) := by
  induction before, s using scan_induction run_anchored with
  | done before => exact ⟨settled_nil, rfl, Nat.le_refl _⟩
  | miss before c s none ih =>
    rw [piecesFrom_miss none]
    exact ih.cons none
  | hit before covered rest lineBreak _ some_text hit ih =>
    rw [piecesFrom_hit hit some_text]
    exact ih.run hit

theorem settled_collapseBlankLines (s : Text) : Settled (collapseBlankLines s) := by
  rw [collapseBlankLines, replace_eq]
  exact (collapsed_piecesFrom none s).settled

theorem collapseBlankLines_of_settled {s : Text} (h : Settled s) : collapseBlankLines s = s := by
  rw [collapseBlankLines, replace_eq, pieces_of_quiet fun before left suffix _ =>
    h before left suffix]
  simp [List.flatMap_map, replacePiece]

/-- Collapsing runs of blank lines a second time does nothing. -/
theorem collapseBlankLines_collapseBlankLines (s : Text) :
    collapseBlankLines (collapseBlankLines s) = collapseBlankLines s :=
  collapseBlankLines_of_settled (settled_collapseBlankLines s)

/-- Collapsing runs of blank lines keeps the lines that are not blank. -/
theorem solidLines_collapseBlankLines (s : Text) :
    solidLines (collapseBlankLines s) = solidLines s := by
  suffices behind : ∀ front, solidLines (front ++ (piecesFrom run 0 none s).flatMap
      (replacePiece fun b => b.text ++ b.text ++ b.text)) = solidLines (front ++ s) by
    rw [collapseBlankLines, replace_eq]
    exact behind []
  induction (none : Option Char), s using scan_induction run_anchored with
  | done before => exact fun front => rfl
  | miss before c s none ih =>
    intro front
    rw [piecesFrom_miss none]
    simpa [replacePiece] using ih (front ++ [c])
  | hit before covered rest lineBreak _ some_text hit ih =>
    intro front
    obtain ⟨_, _, same⟩ := run_eq_some hit
    rw [same, piecesFrom_hit hit some_text, List.flatMap_cons, ← List.append_assoc, ih,
      List.append_assoc, replacePiece]

end Collapsing

end TokenForge

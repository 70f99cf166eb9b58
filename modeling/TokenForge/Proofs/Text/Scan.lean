import TokenForge.Text.Scan

/-!
# Scanning part by part

A scan of a text whose beginning is known.  Where the recogniser hits nothing the
pieces are the characters (`piecesFrom_quiet`), where it hits at once the first piece
is the hit (`piecesFrom_hit`), and in both cases the scan goes on behind the part with
the character before that position (`charBefore`).
-/

namespace TokenForge

namespace Text

variable {α : Type} {find : Recogniser α}

/-! ## The character before a position -/

/-- The character before the position that follows `read`, where `before` stands before
`read`. -/
def charBefore : Option Char → Text → Option Char
  | before, [] => before
  | _, c :: read => charBefore (some c) read

@[simp]
theorem charBefore_nil (before : Option Char) : charBefore before [] = before := rfl

@[simp]
theorem charBefore_cons (before : Option Char) (c : Char) (read : Text) :
    charBefore before (c :: read) = charBefore (some c) read := rfl

@[simp]
theorem charBefore_append (before : Option Char) (read more : Text) :
    charBefore before (read ++ more) = charBefore (charBefore before read) more := by
  induction read generalizing before with
  | nil => rfl
  | cons c read ih => exact ih (some c)

/-- Behind a part of a line the character before is one of the line. -/
theorem charBefore_mem (before : Option Char) {read : Text} (h : read ≠ []) :
    ∃ c ∈ read, charBefore before read = some c := by
  induction read generalizing before with
  | nil => exact absurd rfl h
  | cons c read ih =>
    cases read with
    | nil => exact ⟨c, by simp, rfl⟩
    | cons d read =>
      obtain ⟨e, member, same⟩ := ih (some c) (by simp)
      exact ⟨e, List.mem_cons_of_mem _ member, same⟩

/-- The character before is the last one of what was read, if something was. -/
theorem charBefore_eq_some {before : Option Char} {read : Text} {c : Char}
    (h : charBefore before read = some c) :
    read = [] ∧ before = some c ∨ ∃ init, read = init ++ [c] := by
  rcases List.eq_nil_or_concat read with rfl | ⟨init, last, rfl⟩
  · exact .inl ⟨rfl, h⟩
  · rw [List.concat_eq_append, charBefore_append] at h
    obtain rfl := Option.some.inj h
    exact .inr ⟨init, List.concat_eq_append⟩

theorem charBefore_eq_getLast? (before : Option Char) {read : Text} (h : read ≠ []) :
    charBefore before read = read.getLast? := by
  rcases List.eq_nil_or_concat read with rfl | ⟨init, last, rfl⟩
  · exact absurd rfl h
  · simp

/-! ## Scans -/

/-- What belongs to the last hit is passed over. -/
theorem piecesFrom_skip (find : Recogniser α) (skip : Nat) (before : Option Char) (s : Text) :
    piecesFrom find skip before s =
      piecesFrom find 0 (charBefore before (s.take skip)) (s.drop skip) := by
  induction s generalizing skip before with
  | nil => simp [piecesFrom]
  | cons c s ih =>
    cases skip with
    | zero => simp
    | succ skip =>
      rw [piecesFrom, ih]
      rfl

/-- A text at whose beginning the recogniser hits. -/
theorem piecesFrom_hit {before : Option Char} {covered rest : Text} {a : α}
    (h : find before (covered ++ rest) = some (a, rest)) (some_text : covered ≠ []) :
    piecesFrom find 0 before (covered ++ rest) =
      .hit a covered :: piecesFrom find 0 (charBefore before covered) rest := by
  cases covered with
  | nil => exact absurd rfl some_text
  | cons c covered =>
    simp only [List.cons_append] at h ⊢
    simp only [piecesFrom, h]
    rw [piecesFrom_skip]
    simp

/-- A text in whose beginning the recogniser hits nowhere. -/
theorem piecesFrom_quiet {before : Option Char} {quiet rest : Text}
    (h : ∀ read left, quiet = read ++ left → left ≠ [] →
      find (charBefore before read) (left ++ rest) = none) :
    piecesFrom find 0 before (quiet ++ rest) =
      quiet.map .char ++ piecesFrom find 0 (charBefore before quiet) rest := by
  induction quiet generalizing before with
  | nil => rfl
  | cons c quiet ih =>
    have here : find before (c :: (quiet ++ rest)) = none := h [] (c :: quiet) rfl (by simp)
    have later : ∀ read left, quiet = read ++ left → left ≠ [] →
        find (charBefore (some c) read) (left ++ rest) = none := by
      intro read left split some_left
      exact h (c :: read) left (by rw [split]; rfl) some_left
    simp only [List.cons_append, piecesFrom, here, List.map_cons]
    rw [ih later]
    rfl

/-- A line in which the recogniser hits nowhere, nor at its line feed. -/
theorem piecesFrom_quietLine {before : Option Char} {line rest : Text}
    (h : ∀ read left, line = read ++ left →
      find (charBefore before read) (left ++ '\n' :: rest) = none) :
    piecesFrom find 0 before (line ++ '\n' :: rest) =
      (line ++ ['\n']).map .char ++ piecesFrom find 0 (some '\n') rest := by
  have split : line ++ '\n' :: rest = (line ++ ['\n']) ++ rest := by simp
  rw [split, piecesFrom_quiet]
  · simp
  · intro read left whole some_left
    -- The line feed belongs to what is left, so that the rest of it is a part of the line.
    obtain ⟨left, rfl⟩ : ∃ part, left = part ++ ['\n'] := by
      rcases List.eq_nil_or_concat left with rfl | ⟨part, c, rfl⟩
      · exact absurd rfl some_left
      · rw [List.concat_eq_append, ← List.append_assoc] at whole
        obtain ⟨_, same⟩ := List.append_inj' whole rfl
        exact ⟨part, by simp [List.cons.inj same.symm]⟩
    rw [← List.append_assoc, List.append_left_inj] at whole
    simpa using h read left whole

theorem piecesFrom_miss {before : Option Char} {c : Char} {s : Text}
    (h : find before (c :: s) = none) :
    piecesFrom find 0 before (c :: s) = .char c :: piecesFrom find 0 (some c) s := by
  rw [piecesFrom, h]

/-- A text in which the recogniser hits nowhere up to its end. -/
theorem piecesFrom_of_quiet {before : Option Char} {s : Text}
    (h : ∀ read left, s = read ++ left → left ≠ [] → find (charBefore before read) left = none) :
    piecesFrom find 0 before s = s.map .char := by
  have quiet : ∀ read left, s = read ++ left → left ≠ [] →
      find (charBefore before read) (left ++ []) = none := by
    intro read left split some_left
    rw [List.append_nil]
    exact h read left split some_left
  have scanned := piecesFrom_quiet quiet
  simpa [piecesFrom] using scanned

/-- A text in which the recogniser hits nowhere. -/
theorem pieces_of_quiet {s : Text}
    (h : ∀ before left, left <:+ s → left ≠ [] → find before left = none) :
    pieces find s = s.map .char :=
  piecesFrom_of_quiet fun read left split some_left =>
    h _ left ⟨read, split.symm⟩ some_left

/-! ## Anchored recognisers -/

/-- A recogniser that hits only behind certain characters, and never without covering
something. -/
def Anchored (start : Option Char → Bool) (find : Recogniser α) : Prop :=
  ∀ before s a rest, find before s = some (a, rest) →
    start before = true ∧ ∃ covered, covered ≠ [] ∧ s = covered ++ rest

/-- Induction along a scan: character by character where nothing is hit, and from a hit to what
follows it. -/
theorem scan_induction {start : Option Char → Bool} (anchored : Anchored start find)
    {motive : Option Char → Text → Prop} (done : ∀ before, motive before [])
    (miss : ∀ before c s, find before (c :: s) = none → motive (some c) s →
      motive before (c :: s))
    (hit : ∀ before covered rest a, start before = true → covered ≠ [] →
      find before (covered ++ rest) = some (a, rest) →
      motive (charBefore before covered) rest → motive before (covered ++ rest))
    (before : Option Char) (s : Text) : motive before s := by
  suffices bounded : ∀ n before s, s.length = n → motive before s from bounded _ before s rfl
  intro n
  induction n using Nat.strongRecOn with
  | ind n ih =>
    rintro before (_ | ⟨c, s⟩) rfl
    · exact done before
    cases here : find before (c :: s) with
    | none => exact miss before c s here (ih s.length (by simp) _ s rfl)
    | some found =>
      obtain ⟨a, rest⟩ := found
      obtain ⟨started, covered, some_text, split⟩ := anchored before _ a rest here
      have shorter : rest.length < (c :: s).length := by
        have := List.length_pos_iff.mpr some_text
        rw [split, List.length_append]
        omega
      rw [split] at here ⊢
      exact hit before covered rest a started some_text here (ih _ shorter _ rest rfl)

/-! ## Finds -/

/-- The finds of a scan. -/
def found (pieces : List (Piece α)) : List α := pieces.filterMap Piece.found?

@[simp]
theorem found_append (pieces more : List (Piece α)) :
    found (pieces ++ more) = found pieces ++ found more := List.filterMap_append

@[simp]
theorem found_chars (s : Text) : found (s.map (Piece.char (α := α))) = [] := by
  simp [found, Piece.found?]

/-- What is found stands somewhere in the text. -/
theorem exists_of_mem_found {start : Option Char → Bool} (anchored : Anchored start find)
    {before : Option Char} {s : Text} {a : α} (member : a ∈ found (piecesFrom find 0 before s)) :
    ∃ before left rest, left <:+ s ∧ find before left = some (a, rest) := by
  induction before, s using scan_induction anchored with
  | done before => cases member
  | miss before c s missed ih =>
    rw [piecesFrom_miss missed] at member
    obtain ⟨before, left, rest, suffix, hit⟩ := ih member
    exact ⟨before, left, rest, suffix.trans (List.suffix_cons c s), hit⟩
  | hit before covered rest b _ some_text hit ih =>
    rw [piecesFrom_hit hit some_text] at member
    rcases List.mem_cons.mp member with rfl | later
    · exact ⟨before, covered ++ rest, rest, List.suffix_refl _, hit⟩
    · obtain ⟨before, left, rest, suffix, hit⟩ := ih later
      exact ⟨before, left, rest, suffix.trans (List.suffix_append covered _), hit⟩

/-- Nothing is found if and only if the recogniser hits nowhere. -/
theorem found_eq_nil_iff {before : Option Char} {s : Text} :
    found (piecesFrom find 0 before s) = [] ↔ ∀ read left, s = read ++ left → left ≠ [] →
      find (charBefore before read) left = none := by
  constructor
  · intro h
    induction s generalizing before with
    | nil =>
      intro read left split some_left
      exact absurd (List.append_eq_nil_iff.mp split.symm).2 some_left
    | cons c s ih =>
      cases here : find before (c :: s) with
      | some hit => simp [piecesFrom, here, found, Piece.found?] at h
      | none =>
        rw [piecesFrom, here] at h
        intro read left split some_left
        cases read with
        | nil =>
          rw [List.nil_append] at split
          rw [← split]
          exact here
        | cons d read =>
          obtain ⟨rfl, rest⟩ := List.cons.inj split
          exact ih h read left rest some_left
  · intro h
    rw [piecesFrom_of_quiet h, found_chars]

/-- A text in which nothing is found is read character by character. -/
theorem piecesFrom_of_found_eq_nil {before : Option Char} {s : Text}
    (h : found (piecesFrom find 0 before s) = []) : piecesFrom find 0 before s = s.map .char :=
  piecesFrom_of_quiet (found_eq_nil_iff.mp h)

/-! ## Replacements -/

/-- The text in the place of a piece when finds are replaced. -/
def replacePiece (substitute : α → Text) : Piece α → Text
  | .char c => [c]
  | .hit a _ => substitute a

theorem replace_eq (find : Recogniser α) (substitute : α → Text) (s : Text) :
    replace find substitute s = (pieces find s).flatMap (replacePiece substitute) := rfl

/-- What is left when hits are removed stands in the text in this order. -/
theorem removed_sublist (pieces : List (Piece α)) :
    (pieces.flatMap (replacePiece fun _ => [])).Sublist (pieces.flatMap Piece.text) := by
  induction pieces with
  | nil => exact .slnil
  | cons piece pieces ih =>
    cases piece with
    | char c => exact ih.cons_cons c
    | hit a covered => exact ih.trans (List.sublist_append_right _ _)

theorem remove_sublist (find : Recogniser α) (s : Text) : (remove find s).Sublist s := by
  have sublist := removed_sublist (pieces find s)
  rwa [pieces_flatMap_text] at sublist

/-- A hit covers something. -/
theorem covered_ne_nil {skip : Nat} {before : Option Char} {s covered : Text} {a : α}
    (h : .hit a covered ∈ piecesFrom find skip before s) : covered ≠ [] := by
  induction s generalizing skip before with
  | nil => simp [piecesFrom] at h
  | cons c s ih =>
    cases skip with
    | succ skip => exact ih h
    | zero =>
      rw [piecesFrom] at h
      split at h
      · exact ih (List.mem_of_ne_of_mem (by simp) h)
      · rcases List.mem_cons.mp h with same | later
        · cases same
          simp
        · exact ih later

theorem removed_eq_iff {pieces : List (Piece α)}
    (some_text : ∀ a covered, .hit a covered ∈ pieces → covered ≠ []) :
    pieces.flatMap (replacePiece fun _ => []) = pieces.flatMap Piece.text ↔ found pieces = [] := by
  induction pieces with
  | nil => simp [found]
  | cons piece pieces ih =>
    have ih := ih fun a covered member => some_text a covered (.tail _ member)
    cases piece with
    | char c => simpa [replacePiece, Piece.text, found, Piece.found?] using ih
    | hit a covered =>
      refine ⟨fun same => ?_, fun nothing => ?_⟩
      · -- A hit makes the text longer than what is left of it.
        have shorter := (removed_sublist pieces).length_le
        have longer := List.length_pos_iff.mpr (some_text a covered (.head _))
        have lengths := congrArg List.length same
        simp only [List.flatMap_cons, replacePiece, Piece.text, List.nil_append,
          List.length_append] at lengths
        omega
      · cases nothing

/-- Nothing is removed if and only if nothing is hit. -/
theorem remove_eq_self_iff {s : Text} : remove find s = s ↔ hits find s = [] := by
  have same := @removed_eq_iff α (pieces find s) fun _ _ => covered_ne_nil
  rwa [pieces_flatMap_text] at same

end Text

end TokenForge

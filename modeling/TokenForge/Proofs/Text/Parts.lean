import Mathlib.Data.List.TakeWhile
import TokenForge.Proofs.Import.Confined

/-!
# Parts of a text

A text is cut behind every line feed and every semicolon.  Directives, license lines and
pragmas start where a part starts, so a scan for them goes on from part to part: where
nothing is hit at the beginning of a part, nothing is hit in it (`piecesFrom_part`).

A word without line feeds and semicolons that is read at the beginning of a part is read
within the part (`Ended.after?_append`).  White space may go on into the next parts, and
then the word stands at the beginning of one of them (`exists_part_of_dropBlanks`).
-/

namespace TokenForge

namespace Text

open Import (Closed closed_append closed_nil mayStart)

/-- The parts of a text.  All but the last end in a line feed or a semicolon, and neither stands
elsewhere in a part. -/
def parts : Text → List Text
  | [] => []
  | c :: s =>
    if mayStart (some c) then [c] :: parts s
    else
      match parts s with
      | [] => [[c]]
      | part :: more => (c :: part) :: more

/-- A text that begins a longer one, as a part of it. -/
structure IsPart (part rest : Text) : Prop where
  some_text : part ≠ []
  ends : Closed part ∨ rest = []
  inside : ∀ c ∈ part.dropLast, mayStart (some c) = false

variable {part rest s : Text}

theorem closed_cons {c : Char} (some_text : s ≠ []) : Closed (c :: s) ↔ Closed s :=
  closed_append (a := [c]) some_text

/-- The first part of a text. -/
theorem exists_isPart (some_text : s ≠ []) : ∃ part rest, s = part ++ rest ∧ IsPart part rest := by
  induction s with
  | nil => exact absurd rfl some_text
  | cons c s ih =>
    by_cases last : mayStart (some c) = true
    · exact ⟨[c], s, rfl, by simp, .inl last, by simp⟩
    · by_cases none : s = []
      · exact ⟨[c], s, rfl, by simp, .inr none, by simp⟩
      · obtain ⟨part, rest, rfl, first⟩ := ih none
        refine ⟨c :: part, rest, rfl, by simp, ?_, ?_⟩
        · rw [closed_cons first.some_text]
          exact first.ends
        · intro d member
          rw [List.dropLast_cons_of_ne_nil first.some_text] at member
          rcases List.mem_cons.mp member with rfl | member
          · simpa using last
          · exact first.inside d member

theorem IsPart.tail {c : Char} (h : IsPart (c :: part) rest) (some_text : part ≠ []) :
    mayStart (some c) = false ∧ IsPart part rest := by
  have inside := h.inside
  rw [List.dropLast_cons_of_ne_nil some_text] at inside
  refine ⟨inside c (.head _), some_text, ?_, fun d member => inside d (.tail _ member)⟩
  rw [← closed_cons some_text]
  exact h.ends

/-- What stands in a part before some of it ends no part. -/
theorem IsPart.inside_of_append {front left : Text} (h : IsPart (front ++ left) rest)
    (some_left : left ≠ []) : ∀ c ∈ front, mayStart (some c) = false := by
  intro c member
  refine h.inside c ?_
  rw [List.dropLast_append_of_ne_nil some_left]
  exact List.mem_append_left _ member

/-- The last part of a text may have no end. -/
theorem IsPart.inside_of_not_closed (h : IsPart part rest) (unfinished : ¬ Closed part) :
    ∀ c ∈ part, mayStart (some c) = false := by
  intro c member
  rcases List.eq_nil_or_concat part with rfl | ⟨init, last, rfl⟩
  · cases member
  · rw [List.concat_eq_append] at h unfinished member
    rcases List.mem_append.mp member with before | same
    · exact h.inside_of_append (by simp) c before
    · rw [List.mem_singleton.mp same]
      by_contra ends
      rw [Bool.not_eq_false] at ends
      exact unfinished (Import.closed_concat ends)

theorem IsPart.parts (h : IsPart part rest) : parts (part ++ rest) = part :: parts rest := by
  induction part with
  | nil => exact absurd rfl h.some_text
  | cons c part ih =>
    by_cases some_text : part = []
    · subst some_text
      rcases h.ends with closed | rfl
      · rw [List.singleton_append, Text.parts, if_pos (by exact closed)]
      · simp [Text.parts]
    · obtain ⟨inner, tail⟩ := h.tail some_text
      rw [List.cons_append, Text.parts, ih tail]
      simp [inner]

/-- Induction from part to part. -/
theorem parts_induction {motive : Text → Prop} (done : motive [])
    (step : ∀ part rest, IsPart part rest → motive rest → motive (part ++ rest)) (s : Text) :
    motive s := by
  suffices bounded : ∀ n s, s.length = n → motive s from bounded _ s rfl
  intro n
  induction n using Nat.strongRecOn with
  | ind n ih =>
    rintro s rfl
    by_cases some_text : s = []
    · exact some_text ▸ done
    · obtain ⟨part, rest, rfl, first⟩ := exists_isPart some_text
      have := List.length_pos_iff.mpr first.some_text
      exact step part rest first (ih rest.length (by rw [List.length_append]; omega) rest rfl)

/-- The parts of a text put together are the text. -/
theorem flatten_parts (s : Text) : (Text.parts s).flatten = s := by
  induction s using parts_induction with
  | done => rfl
  | step part rest first ih => rw [first.parts, List.flatten_cons, ih]

theorem parts_append {a : Text} (closed : Closed a) (b : Text) :
    parts (a ++ b) = parts a ++ parts b := by
  induction a using parts_induction with
  | done => rfl
  | step part rest first ih =>
    by_cases none : rest = []
    · subst none
      rw [List.append_nil] at closed ⊢
      have alone : IsPart part [] := ⟨first.some_text, .inr rfl, first.inside⟩
      have whole : IsPart part b := ⟨first.some_text, .inl closed, first.inside⟩
      have same := alone.parts
      rw [List.append_nil] at same
      rw [whole.parts, same]
      rfl
    · have longer : IsPart part (rest ++ b) := by
        rcases first.ends with ends | nothing
        · exact ⟨first.some_text, .inl ends, first.inside⟩
        · exact absurd nothing none
      rw [List.append_assoc, longer.parts, first.parts, ih ((closed_append none).mp closed)]
      rfl

theorem ne_nil_of_mem_parts (h : part ∈ parts s) : part ≠ [] := by
  induction s using parts_induction with
  | done => cases h
  | step first rest isPart ih =>
    rw [isPart.parts] at h
    rcases List.mem_cons.mp h with rfl | later
    · exact isPart.some_text
    · exact ih later

/-! ## White space before a part -/

/-- Characters that end no part, as spaces and tabs. -/
def InnerBlanks (s : Text) : Prop := ∀ c ∈ s, isBlank c = true ∧ mayStart (some c) = false

/-- Such characters belong to the part that follows. -/
theorem parts_inner_append {inner : Text} (blank : InnerBlanks inner) (some_text : s ≠ []) :
    ∃ part more, parts s = part :: more ∧ parts (inner ++ s) = (inner ++ part) :: more := by
  obtain ⟨part, rest, rfl, first⟩ := exists_isPart some_text
  refine ⟨part, parts rest, first.parts, ?_⟩
  have longer : IsPart (inner ++ part) rest := by
    refine ⟨by simp [first.some_text], ?_, ?_⟩
    · rw [closed_append first.some_text]
      exact first.ends
    · intro c member
      rw [List.dropLast_append_of_ne_nil first.some_text] at member
      rcases List.mem_append.mp member with before | inside
      · exact (blank c before).2
      · exact first.inside c inside
  rw [← List.append_assoc, longer.parts]

theorem InnerBlanks.dropBlanks_append {inner : Text} (blank : InnerBlanks inner) (s : Text) :
    dropBlanks (inner ++ s) = dropBlanks s :=
  List.dropWhile_append_of_pos fun c member => (blank c member).1

/-! ## Scans -/

/-- Where a recogniser that hits where parts start hits nothing at the beginning of a part, it
hits nothing in it. -/
theorem piecesFrom_part {α : Type} {find : Recogniser α} {start : Option Char → Bool}
    (anchored : Anchored start find)
    (starts : ∀ {before}, start before = true → mayStart before = true)
    (isPart : IsPart part rest) {before : Option Char} (miss : find before (part ++ rest) = none) :
    piecesFrom find 0 before (part ++ rest) =
      part.map .char ++ piecesFrom find 0 part.getLast? rest := by
  rw [piecesFrom_quiet, charBefore_eq_getLast? before isPart.some_text]
  intro read left split some_left
  by_cases nothing : read = []
  · subst nothing
    rw [List.nil_append] at split
    rw [← split]
    exact miss
  · cases found : find (charBefore before read) (left ++ rest) with
    | none => rfl
    | some hit =>
      have started := starts (anchored _ _ hit.1 hit.2 found).1
      obtain ⟨c, last⟩ := Option.isSome_iff_exists.mp (List.getLast?_isSome.mpr nothing)
      have inside := (split ▸ isPart).inside_of_append some_left c (List.mem_of_getLast? last)
      rw [charBefore_eq_getLast? before nothing, last, inside] at started
      cases started

/-- Induction along a scan: from part to part where nothing is hit, and from a hit to what follows
it. -/
theorem scan_parts_induction {α : Type} {find : Recogniser α} {start : Option Char → Bool}
    (anchored : Anchored start find) {motive : Option Char → Text → Prop}
    (done : ∀ before, motive before [])
    (pass : ∀ before part rest, IsPart part rest → find before (part ++ rest) = none →
      motive part.getLast? rest → motive before (part ++ rest))
    (hit : ∀ before covered rest a, start before = true → covered ≠ [] →
      find before (covered ++ rest) = some (a, rest) →
      motive (charBefore before covered) rest → motive before (covered ++ rest))
    (before : Option Char) (s : Text) : motive before s := by
  suffices bounded : ∀ n before s, s.length = n → motive before s from bounded _ before s rfl
  intro n
  induction n using Nat.strongRecOn with
  | ind n ih =>
    rintro before s rfl
    by_cases some_text : s = []
    · exact some_text ▸ done before
    have shorter : ∀ {read rest : Text}, read ≠ [] → s = read ++ rest →
        rest.length < s.length := by
      intro read rest some_read split
      have := List.length_pos_iff.mpr some_read
      rw [split, List.length_append]
      omega
    cases here : find before s with
    | none =>
      obtain ⟨part, rest, split, first⟩ := exists_isPart some_text
      have later := ih _ (shorter first.some_text split) part.getLast? rest rfl
      subst split
      exact pass before part rest first here later
    | some found =>
      obtain ⟨a, rest⟩ := found
      obtain ⟨started, covered, some_covered, split⟩ := anchored before _ a rest here
      have later := ih _ (shorter some_covered split) (charBefore before covered) rest rfl
      subst split
      exact hit before covered rest a started some_covered here later

/-! ## Reading at the beginning of a part -/

/-- A text is what is left of a part before `rest`. -/
def Ended (s rest : Text) : Prop := rest = [] ∨ s ≠ [] ∧ Closed s

theorem IsPart.ended (h : IsPart part rest) : Ended part rest :=
  h.ends.symm.imp_right fun closed => ⟨h.some_text, closed⟩

/-- What is left of a part when not all of it was read. -/
theorem Ended.of_suffix (h : Ended part rest) (suffix : s <:+ part) (some_text : s ≠ []) :
    Ended s rest := by
  obtain ⟨read, rfl⟩ := suffix
  exact h.imp_right fun closed => ⟨some_text, (closed_append some_text).mp closed.2⟩

/-- Characters that do not end a part are not all of it. -/
theorem Ended.ne_nil (h : Ended (part ++ s) rest) (some_rest : rest ≠ [])
    (inside : ∀ c ∈ part, mayStart (some c) = false) : s ≠ [] := by
  rintro rfl
  rcases h with nothing | ⟨some_text, closed⟩
  · exact some_rest nothing
  · rw [List.append_nil] at some_text closed
    obtain ⟨c, last⟩ := Option.isSome_iff_exists.mp (List.getLast?_isSome.mpr some_text)
    rw [Closed, last, inside c (List.mem_of_getLast? last)] at closed
    cases closed

/-- A word without line feeds and semicolons is read within a part. -/
theorem Ended.after?_append {word : Text} (h : Ended s rest)
    (single : ∀ c ∈ word, mayStart (some c) = false) :
    after? word (s ++ rest) = (after? word s).map (· ++ rest) := by
  induction word generalizing s with
  | nil => rfl
  | cons d word ih =>
    cases s with
    | nil =>
      rcases h with rfl | ⟨impossible, _⟩
      · rfl
      · exact absurd rfl impossible
    | cons c s =>
      rw [List.cons_append, after?, after?]
      split
      · next same =>
        subst same
        refine ih ?_ fun c member => single c (.tail _ member)
        by_cases nothing : rest = []
        · exact .inl nothing
        · have some_text : s ≠ [] :=
            @Ended.ne_nil [d] rest s h nothing (by simpa using single d (.head _))
          exact h.of_suffix (List.suffix_cons d s) some_text
      · rfl

/-- What is left of a part when a word was read. -/
theorem Ended.after? {word behind : Text} (h : Ended s rest)
    (single : ∀ c ∈ word, mayStart (some c) = false) (read : after? word s = some behind) :
    Ended behind rest := by
  by_cases nothing : rest = []
  · exact .inl nothing
  · rw [after?_eq_some_iff] at read
    subst read
    exact h.of_suffix (List.suffix_append _ _) (h.ne_nil nothing single)

/-- A class of characters that does not reach the end of a part is dropped within it. -/
theorem dropWhile_append_of_ne_nil {p : Char → Bool} (some_text : s.dropWhile p ≠ [])
    (rest : Text) : (s ++ rest).dropWhile p = s.dropWhile p ++ rest := by
  rw [List.dropWhile_append, if_neg (by simpa using some_text)]

theorem dropWhile_append_of_eq_nil {p : Char → Bool} (none : s.dropWhile p = [])
    (rest : Text) : (s ++ rest).dropWhile p = rest.dropWhile p := by
  rw [List.dropWhile_append, if_pos (by simp [none])]

theorem mayStart_of_isSpaceOrTab {c : Char} (h : isSpaceOrTab c = true) :
    mayStart (some c) = false := by
  simp only [isSpaceOrTab, Bool.or_eq_true, beq_iff_eq] at h
  rcases h with rfl | rfl <;> rfl

/-- Only at the end of a text spaces and tabs are all that is left of a part. -/
theorem Ended.eq_nil_of_dropSpaces (h : Ended part rest) (all : dropSpaces part = []) :
    rest = [] := by
  rcases h with nothing | ⟨some_text, closed⟩
  · exact nothing
  · obtain ⟨c, last⟩ := Option.isSome_iff_exists.mp (List.getLast?_isSome.mpr some_text)
    have space := List.dropWhile_eq_nil_iff.mp all c (List.mem_of_getLast? last)
    rw [Closed, last, mayStart_of_isSpaceOrTab space] at closed
    cases closed

/-- Spaces and tabs are dropped within a part. -/
theorem Ended.dropSpaces_append (h : Ended part rest) :
    dropSpaces (part ++ rest) = dropSpaces part ++ rest := by
  by_cases all : dropSpaces part = []
  · rw [h.eq_nil_of_dropSpaces all, List.append_nil, List.append_nil]
  · exact dropWhile_append_of_ne_nil all rest

theorem Ended.dropSpaces (h : Ended part rest) : Ended (dropSpaces part) rest := by
  by_cases all : Text.dropSpaces part = []
  · exact .inl (h.eq_nil_of_dropSpaces all)
  · exact h.of_suffix (dropSpaces_suffix part) all

/-- A word that is read behind white space stands at the beginning of a part. -/
theorem exists_part_of_dropBlanks {word : Text}
    (single : ∀ c ∈ word, mayStart (some c) = false) (some_word : word ≠ [])
    (read : (Text.after? word (dropBlanks s)).isSome) :
    ∃ part ∈ parts s, (Text.after? word (dropBlanks part)).isSome := by
  induction s using parts_induction with
  | done =>
    obtain ⟨c, word, rfl⟩ := List.exists_cons_of_ne_nil some_word
    cases read
  | step part rest first ih =>
    rw [first.parts]
    by_cases all : dropBlanks part = []
    · rw [dropBlanks, dropWhile_append_of_eq_nil all] at read
      obtain ⟨later, member, word⟩ := ih read
      exact ⟨later, .tail _ member, word⟩
    · rw [dropBlanks, dropWhile_append_of_ne_nil all] at read
      have ended : Ended (dropBlanks part) rest := first.ended.of_suffix (dropBlanks_suffix _) all
      rw [dropBlanks] at ended
      rw [ended.after?_append single, Option.isSome_map] at read
      exact ⟨part, .head _, read⟩

end Text

end TokenForge

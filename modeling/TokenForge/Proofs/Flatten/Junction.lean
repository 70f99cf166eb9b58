import Mathlib.Data.List.Chain
import TokenForge.Proofs.Flatten.Anchored
import TokenForge.Proofs.Flatten.LineByLine

/-!
# What the last passes leave alone

The last two passes over a flattened text, the one for feature pragmas and the one for blank
lines, read over line ends: a pragma may have line breaks behind its words, and a run of blank
lines consists of them.  Where a text with a *junction* begins, a line feed and behind it a
comment, both of them stop.  Whatever stands before the junction, what a recogniser leaves of it
still ends at the junction (`Above.featurePragma`, `Above.run`).

So a comment and what follows it stays as it is, if no hit starts there itself
(`firstPragmas_above`, `collapsed_above`).
-/

namespace TokenForge

open Text

namespace Flatten

/-- A text is `tail`, or it ends in a line feed and `tail`. -/
inductive Above (tail : Text) : Text → Prop where
  | here : Above tail tail
  | lines (front : Text) : Above tail (front ++ '\n' :: tail)

/-- A text begins with a comment. -/
def Commented (s : Text) : Prop := s.head? = some '/'

theorem Commented.stops {s : Text} (h : Commented s) {p : Char → Bool} (stop : p '/' = false) :
    Stops p s := by
  rw [Stops, h]
  rintro c ⟨⟩
  exact stop

theorem Commented.ne_nil {s : Text} (h : Commented s) : s ≠ [] := by
  rintro rfl
  cases h

namespace Above

variable {tail s rest : Text}

/-! ## Reading on -/

theorem eq_or (h : Above tail s) : s = tail ∨ ∃ front, s = front ++ '\n' :: tail := by
  cases h with
  | here => exact .inl rfl
  | lines front => exact .inr ⟨front, rfl⟩

/-- Behind a character that the tail does not begin with. -/
theorem behind {c : Char} (h : Above tail (c :: s)) (other : tail.head? ≠ some c) :
    Above tail s := by
  generalize whole : c :: s = t at h
  cases h with
  | here => exact absurd (whole ▸ rfl) other
  | lines front =>
    cases front with
    | nil =>
      obtain ⟨rfl, rfl⟩ := List.cons.inj whole
      exact .here
    | cons d front =>
      obtain ⟨rfl, rfl⟩ := List.cons.inj whole
      exact .lines front

theorem dropWhile (h : Above tail s) {p : Char → Bool} (stop : Stops p tail) :
    Above tail (s.dropWhile p) := by
  cases h with
  | here =>
    rw [dropWhile_of_stops stop]
    exact .here
  | lines front =>
    induction front with
    | nil =>
      rw [List.nil_append, List.dropWhile_cons]
      split
      · rw [dropWhile_of_stops stop]
        exact .here
      · exact .lines []
    | cons c front ih =>
      rw [List.cons_append, List.dropWhile_cons]
      split
      · exact ih
      · exact .lines (c :: front)

section Comment

variable (comment : Commented tail)

include comment

/-- A word on one line that begins no comment stands before the junction. -/
theorem after? {word : Text} {c : Char} (h : Above tail s) (first : word.head? = some c)
    (other : c ≠ '/') (single : '\n' ∉ word) (read : Text.after? word s = some rest) :
    ∃ front, rest = front ++ '\n' :: tail := by
  cases h with
  | here =>
    rw [after?_eq_none first comment other] at read
    cases read
  | lines front =>
    obtain ⟨more, rfl⟩ := isPrefix_of_after? single read (atBreak_cons tail)
    rw [List.append_assoc, after?_append] at read
    cases read
    exact ⟨more, rfl⟩

theorem dropBlanks1? (h : Above tail s) (read : Text.dropBlanks1? s = some rest) :
    Above tail rest := by
  cases s with
  | nil => cases read
  | cons c s =>
    rw [Text.dropBlanks1?, Option.ite_none_right_eq_some] at read
    obtain ⟨blank, ⟨⟩⟩ := read
    refine (h.behind ?_).dropWhile (comment.stops (by decide))
    rw [comment]
    rintro ⟨⟩
    revert blank
    decide

theorem head?_ne {c : Char} (other : c ≠ '/') : tail.head? ≠ some c := by
  rw [comment]
  rintro ⟨⟩
  exact other rfl

/-- Behind characters that begin no comment. -/
theorem skip {front : Text} (h : Above tail (front ++ s)) (other : '/' ∉ front) :
    Above tail s := by
  induction front with
  | nil => exact h
  | cons c front ih =>
    simp only [List.mem_cons, not_or] at other
    exact ih (h.behind (head?_ne comment (Ne.symm other.1))) other.2

/-! ## Feature pragmas -/

theorem afterExperimental? (h : Above tail s)
    (read : Preamble.afterExperimental? s = some rest) : Above tail rest := by
  simp only [Preamble.afterExperimental?, Option.bind_eq_bind, Option.bind_eq_some_iff] at read
  obtain ⟨_, word, blanks⟩ := read
  obtain ⟨front, rfl⟩ := h.after? comment (c := 'e') rfl (by decide) (by decide) word
  exact (Above.lines front).dropBlanks1? comment blanks

theorem dropQuote (h : Above tail s) : Above tail (Preamble.dropQuote s) := by
  unfold Preamble.dropQuote
  split
  · exact h.behind (head?_ne comment (by decide))
  · exact h.behind (head?_ne comment (by decide))
  · exact h

theorem takeFeature? {feature : Preamble.Feature} (h : Above tail s)
    (read : Preamble.takeFeature? s = some (feature, rest)) :
    ∃ front, rest = front ++ '\n' :: tail := by
  obtain ⟨named, _, taken⟩ := List.exists_of_findSome?_eq_some read
  split at taken
  · next _ name =>
    rw [Option.ite_none_right_eq_some] at taken
    obtain ⟨_, ⟨⟩⟩ := taken
    cases feature with
    | abicoder => exact h.after? comment (c := 'a') rfl (by decide) (by decide) name
    | abiEncoderV2 => exact h.after? comment (c := 'A') rfl (by decide) (by decide) name
    | smtChecker => exact h.after? comment (c := 'S') rfl (by decide) (by decide) name
  · cases taken

theorem afterStatement (h : Above tail s) : Above tail (Preamble.afterStatement s) := by
  have spaces : Above tail (dropSpaces s) := h.dropWhile (comment.stops (by decide))
  unfold Preamble.afterStatement
  generalize dropSpaces s = t at spaces ⊢
  split
  · have behind := spaces.behind (head?_ne comment (by decide))
    dsimp only
    split
    · next rest feed =>
      rw [feed] at behind
      exact behind.behind (head?_ne comment (by decide))
    · exact behind
  · dsimp only
    split
    · next rest feed =>
      rw [feed] at spaces
      exact spaces.behind (head?_ne comment (by decide))
    · exact spaces

/-- A feature pragma that starts before the junction ends before it. -/
theorem featurePragma {before : Option Char} {feature : Preamble.Feature} (h : Above tail s)
    (read : Preamble.featurePragma before s = some (feature, rest)) : Above tail rest := by
  rw [Preamble.featurePragma, Option.ite_none_right_eq_some] at read
  obtain ⟨_, read⟩ := read
  simp only [Option.bind_eq_bind, Option.bind_eq_some_iff, Option.pure_def] at read
  obtain ⟨behind, word, left, blanks, ⟨named, body⟩, taken, read⟩ := read
  have spaces : Above tail (dropSpaces s) := h.dropWhile (comment.stops (by decide))
  obtain ⟨behind, rfl⟩ := spaces.after? comment (c := 'p') rfl (by decide) (by decide) word
  have leftAbove : Above tail left := (Above.lines behind).dropBlanks1? comment blanks
  have quoted : Above tail ((Preamble.afterExperimental? left).getD left) := by
    cases experimental : Preamble.afterExperimental? left with
    | none => exact leftAbove
    | some inner => exact leftAbove.afterExperimental? comment experimental
  obtain ⟨body, rfl⟩ := (quoted.dropQuote comment).takeFeature? comment taken
  -- The semicolon stands on the line that the name of the feature is on.
  rw [dropWhile_append_of_atBreak (by decide) (atBreak_cons tail)] at read
  split at read
  · next after ending =>
    cases read
    refine Above.afterStatement comment ?_
    cases statement : body.dropWhile fun c => c != ';' && c != '\n' with
    | nil =>
      rw [statement] at ending
      cases (List.cons.inj ending).1
    | cons c more =>
      rw [statement] at ending
      obtain ⟨_, rfl⟩ := List.cons.inj ending
      exact .lines more
  · cases read

/-! ## Blank lines -/

theorem lineBreak {lineBreak : BlankLines.LineBreak} (h : Above tail (lineBreak.text ++ s)) :
    Above tail s :=
  h.skip comment (by cases lineBreak <;> decide)

theorem dropBlankLines (count : Nat) (h : Above tail s) :
    Above tail (BlankLines.dropBlankLines count s s).2 := by
  induction s using BlankLines.blankLines_induction generalizing count with
  | none s none =>
    rw [BlankLines.dropBlankLines_of_blankLines_eq_zero none]
    exact h
  | line read lineBreak s blank ih =>
    rw [BlankLines.dropBlankLines_line blank]
    have next : Above tail (lineBreak.text ++ s) := by
      refine h.skip comment fun member => ?_
      exact absurd (blank _ member) (by decide)
    exact ih (count + 1) (next.lineBreak comment)

/-- A run of blank lines that starts before the junction ends before it. -/
theorem run {before : Option Char} {lineBreak : BlankLines.LineBreak} (h : Above tail s)
    (read : BlankLines.run before s = some (lineBreak, rest)) : Above tail rest := by
  rw [BlankLines.run_eq, Option.bind_eq_some_iff] at read
  obtain ⟨⟨found, after⟩, taken, read⟩ := read
  rw [Option.ite_none_right_eq_some] at read
  obtain ⟨_, ⟨⟩⟩ := read
  rw [BlankLines.takeBreak?_eq_some taken] at h
  exact (h.lineBreak comment).dropBlankLines comment 0

end Comment

end Above

/-! ## The passes -/

section Passes

variable {tail : Text} (comment : Commented tail)

include comment

/-- The pass for feature pragmas keeps a comment in which no feature pragma starts, and what
follows it, and the comment still begins a line.  `before` and `kept` are the characters before
the position in the text and in what is kept of it. -/
theorem firstPragmas_above
    (quiet : ∀ before, atLineStart before = true →
      piecesFrom Preamble.featurePragma 0 before tail = tail.map .char)
    {before kept : Option Char} {s : Text} (h : Above tail s)
    (start : s = tail → atLineStart before = true)
    (same : atLineStart before = true → atLineStart kept = true)
    (on : List Preamble.Feature) :
    ∃ front, firstPragmas on (piecesFrom Preamble.featurePragma 0 before s) = front ++ tail ∧
      atLineStart (charBefore kept front) = true := by
  have own : ∀ {before kept}, atLineStart before = true →
      (atLineStart before = true → atLineStart kept = true) → ∀ on,
      ∃ front, firstPragmas on (piecesFrom Preamble.featurePragma 0 before tail) = front ++ tail ∧
        atLineStart (charBefore kept front) = true := by
    intro before kept start same on
    have chars := firstPragmas_chars on tail []
    rw [List.append_nil, firstPragmas, List.append_nil] at chars
    exact ⟨[], by rw [quiet before start, chars, List.nil_append], same start⟩
  induction before, s using scan_induction Preamble.featurePragma_anchored generalizing kept on with
  | done before =>
    rcases h.eq_or with rfl | ⟨front, whole⟩
    · exact absurd rfl comment.ne_nil
    · simp at whole
  | miss before c s missed ih =>
    rcases h.eq_or with whole | ⟨front, whole⟩
    · rw [whole]
      exact own (start whole) same on
    · have next : Above tail s ∧ (s = tail → atLineStart (some c) = true) := by
        cases front with
        | nil =>
          obtain ⟨rfl, rfl⟩ := List.cons.inj whole
          exact ⟨.here, fun _ => rfl⟩
        | cons d front =>
          obtain ⟨rfl, rfl⟩ := List.cons.inj whole
          refine ⟨.lines front, fun shorter => ?_⟩
          have := congrArg List.length shorter
          simp at this
          omega
      obtain ⟨front, text, line⟩ := ih next.1 next.2 id on
      refine ⟨c :: front, ?_, line⟩
      rw [piecesFrom_miss missed, firstPragmas, text, List.cons_append]
  | hit before covered rest feature begins some_text hit ih =>
    rcases h.eq_or with whole | ⟨front, whole⟩
    · rw [whole]
      exact own (start whole) same on
    · have next := h.featurePragma comment hit
      have restStart : rest = tail → atLineStart (charBefore before covered) = true := by
        rintro rfl
        rw [← List.singleton_append, ← List.append_assoc, List.append_left_inj] at whole
        rw [whole, charBefore_append]
        rfl
      rw [piecesFrom_hit hit some_text, firstPragmas]
      split
      · exact ih next restStart (fun _ => same begins) _
      · have last : charBefore kept covered = charBefore before covered := by
          rw [charBefore_eq_getLast? _ some_text, charBefore_eq_getLast? _ some_text]
        obtain ⟨front, text, line⟩ := ih next restStart id (on ++ [feature])
        refine ⟨covered ++ front, by rw [text, List.append_assoc], ?_⟩
        rw [charBefore_append, last]
        exact line

/-- The pass for blank lines keeps a comment that begins a line and in which no run of blank lines
starts, and what follows it, and the comment still begins a line. -/
theorem collapsed_above (settled : BlankLines.Settled tail) (before : Option Char) (front : Text) :
    ∃ kept, (piecesFrom BlankLines.run 0 before (front ++ '\n' :: tail)).flatMap
      (replacePiece fun b => b.text ++ b.text ++ b.text) = kept ++ '\n' :: tail := by
  have own : ∀ before, (piecesFrom BlankLines.run 0 before tail).flatMap
      (replacePiece fun b => b.text ++ b.text ++ b.text) = tail := by
    intro before
    rw [piecesFrom_of_quiet fun read left split _ => settled _ left ⟨read, split.symm⟩]
    simp [List.flatMap_map, replacePiece]
  generalize whole : front ++ '\n' :: tail = s
  induction before, s using scan_induction BlankLines.run_anchored generalizing front with
  | done before => simp at whole
  | miss before c s missed ih =>
    rw [piecesFrom_miss missed, List.flatMap_cons, replacePiece]
    cases front with
    | nil =>
      obtain ⟨rfl, rfl⟩ := List.cons.inj whole
      exact ⟨[], by rw [own]; rfl⟩
    | cons d front =>
      obtain ⟨rfl, rfl⟩ := List.cons.inj whole
      obtain ⟨kept, text⟩ := ih front rfl
      exact ⟨d :: kept, by rw [text]; rfl⟩
  | hit before covered rest lineBreak _ some_text hit ih =>
    have above : Above tail (covered ++ rest) := whole ▸ .lines front
    rw [piecesFrom_hit hit some_text, List.flatMap_cons, replacePiece]
    rcases (above.run comment hit).eq_or with rfl | ⟨inner, behind⟩
    · rw [own]
      cases lineBreak with
      | lf => exact ⟨['\n', '\n'], rfl⟩
      | crlf => exact ⟨['\r', '\n', '\r', '\n', '\r'], rfl⟩
    · obtain ⟨kept, text⟩ := ih inner behind.symm
      exact ⟨lineBreak.text ++ lineBreak.text ++ lineBreak.text ++ kept, by
        rw [text, ← List.append_assoc]⟩

end Passes

/-! ## Calm lines -/

/-- A line in which the last passes find nothing: there is no line break in it, and it does not
begin with a feature pragma, whatever follows it. -/
structure Calm (line : Text) : Prop where
  single : '\n' ∉ line
  withoutReturn : '\r' ∉ line
  unfeatured : ∀ rest, Preamble.featurePragma none (line ++ '\n' :: rest) = none

/-- Of two neighbouring lines one is not blank. -/
def SingleGaps (lines : List Text) : Prop :=
  lines.IsChain fun a b => isBlankLine a = false ∨ isBlankLine b = false

theorem Calm.featurePragma {line : Text} (calm : Calm line) {before : Option Char}
    {read left rest : Text} (split : line = read ++ left) :
    Preamble.featurePragma (charBefore before read) (left ++ '\n' :: rest) = none := by
  have starts : ∀ before s, Preamble.featurePragma before s =
      if atLineStart before then Preamble.featurePragma none s else none := fun _ _ => rfl
  rw [starts, ite_eq_right_iff]
  intro here
  by_cases unread : read = []
  · rw [unread, List.nil_append] at split
    rw [← split]
    exact calm.unfeatured rest
  · -- Inside the line the character before is no line feed.
    obtain ⟨c, member, last⟩ := charBefore_mem before unread
    rw [last] at here
    have feed : c = '\n' := by simpa [atLineStart] using here
    exact absurd (split ▸ List.mem_append_left left (feed ▸ member)) calm.single

/-- In calm lines no feature pragma is found. -/
theorem piecesFrom_calm {lines : List Text} (calm : ∀ line ∈ lines, Calm line)
    (before : Option Char) (rest : Text) :
    piecesFrom Preamble.featurePragma 0 before (unlines lines ++ rest) =
      (unlines lines).map .char ++
        piecesFrom Preamble.featurePragma 0 (charBefore before (unlines lines)) rest := by
  induction lines generalizing before with
  | nil => rfl
  | cons line lines ih =>
    have here := calm line (.head _)
    rw [unlines_cons, List.append_assoc, List.cons_append,
      piecesFrom_quietLine fun read left split => here.featurePragma split,
      ih fun line member => calm line (.tail _ member)]
    simp

/-! ## Blank lines among calm lines -/

theorem not_break {line : Text} (single : '\n' ∉ line) (withoutReturn : '\r' ∉ line) {c : Char}
    (member : c ∈ line) (before : Option Char) (s : Text) :
    BlankLines.run before (c :: s) = none := by
  refine BlankLines.run_eq_none_iff.mpr ?_
  rintro (_ | _) after split
  · exact absurd ((List.cons.inj split).1 ▸ member) single
  · exact absurd ((List.cons.inj split).1 ▸ member) withoutReturn

theorem Calm.blankLines {line : Text} (calm : Calm line) (s : Text) :
    BlankLines.blankLines (line ++ '\n' :: s) =
      if isBlankLine line then BlankLines.blankLines s + 1 else 0 := by
  obtain ⟨single, withoutReturn, -⟩ := calm
  induction line with
  | nil => rfl
  | cons c line ih =>
    simp only [List.mem_cons, not_or] at single withoutReturn
    rw [List.cons_append, isBlankLine, List.all_cons, ← isBlankLine]
    cases space : isSpaceOrTab c with
    | true =>
      rw [BlankLines.blankLines_space space, ih single.2 withoutReturn.2]
      rfl
    | false =>
      have other : (c == '\r') = false := by simpa using Ne.symm withoutReturn.1
      have noBreak : BlankLines.takeBreak? (c :: (line ++ '\n' :: s)) = none :=
        BlankLines.takeBreak?_cons_eq_none_iff.mpr
          ⟨Ne.symm single.1, fun same => absurd same.symm withoutReturn.1⟩
      rw [BlankLines.blankLines_cons noBreak, if_neg (by simp [space])]
      simp [other]

/-- A line in front of a settled text. -/
theorem Calm.settled {line s : Text} (calm : Calm line) (h : BlankLines.Settled s) :
    BlankLines.Settled (line ++ s) := by
  obtain ⟨single, withoutReturn, -⟩ := calm
  induction line with
  | nil => exact h
  | cons c line ih =>
    refine BlankLines.settled_cons (not_break single withoutReturn (.head _) · _) (ih ?_ ?_)
    · exact fun member => single (.tail _ member)
    · exact fun member => withoutReturn (.tail _ member)

/-- In calm lines with single gaps there is no run of blank lines. -/
theorem settled_calm {lines : List Text} (calm : ∀ line ∈ lines, Calm line)
    (gaps : SingleGaps lines) : BlankLines.Settled (unlines lines) := by
  have few : ∀ {lines : List Text}, (∀ line ∈ lines, Calm line) → SingleGaps lines →
      BlankLines.blankLines (unlines lines) ≤ 1 := by
    intro lines calm gaps
    rcases lines with _ | ⟨first, _ | ⟨second, lines⟩⟩
    · exact Nat.zero_le 1
    · rw [unlines_cons, (calm first (.head _)).blankLines]
      split
      · exact Nat.le_refl 1
      · exact Nat.zero_le 1
    · rw [unlines_cons, (calm first (.head _)).blankLines, unlines_cons,
        (calm second (.tail _ (.head _))).blankLines]
      rcases (List.isChain_cons_cons.mp gaps).1 with solid | solid <;> simp [solid]
      split <;> simp
  induction lines with
  | nil => exact BlankLines.settled_nil
  | cons line lines ih =>
    have others : ∀ line ∈ lines, Calm line := fun line member => calm line (.tail _ member)
    have behind := ih others gaps.tail
    rw [unlines_cons]
    refine (calm line (.head _)).settled (BlankLines.settled_lineBreak .lf behind ?_)
    exact Nat.le_succ_of_le (few others gaps.tail)

theorem Calm.pieces_run {line : Text} (calm : Calm line) (before : Option Char) (rest : Text) :
    piecesFrom BlankLines.run 0 before (line ++ rest) =
      line.map .char ++ piecesFrom BlankLines.run 0 (charBefore before line) rest := by
  refine piecesFrom_quiet fun read left split some_left => ?_
  cases left with
  | nil => exact absurd rfl some_left
  | cons c left =>
    exact not_break calm.single calm.withoutReturn (split ▸ List.mem_append_right _ (.head _)) _ _

/-! ## Both passes -/

section Opening

variable {first second : Text} (firstCalm : Calm first) (secondCalm : Calm second)
  (solid : isBlankLine second = false)

include firstCalm secondCalm solid

/-- The pass for blank lines keeps two calm lines, the second of which is not blank, up to the
line feed at their end. -/
theorem collapseBlankLines_opening (rest : Text) :
    collapseBlankLines (unlines [first, second] ++ rest) = first ++ '\n' :: (second ++
      (piecesFrom BlankLines.run 0 (charBefore (some '\n') second) ('\n' :: rest)).flatMap
        (replacePiece fun b => b.text ++ b.text ++ b.text)) := by
  have noRun : ∀ before, BlankLines.run before ('\n' :: (second ++ '\n' :: rest)) = none := by
    refine fun before => BlankLines.run_eq_none_iff.mpr ?_
    rintro (_ | _) after same
    · obtain rfl := (List.cons.inj same).2
      have none : BlankLines.blankLines (second ++ '\n' :: rest) = 0 := by
        rw [secondCalm.blankLines, solid]
        rfl
      exact none.trans_le (Nat.zero_le 2)
    · cases (List.cons.inj same).1
  have whole : unlines [first, second] ++ rest = first ++ '\n' :: (second ++ '\n' :: rest) := by
    simp
  rw [whole, collapseBlankLines, replace_eq, Text.pieces, firstCalm.pieces_run,
    piecesFrom_miss (noRun _), secondCalm.pieces_run]
  simp [List.flatMap_map, replacePiece]

/-- The pass for blank lines keeps the first two lines and a comment with what follows it. -/
theorem collapseBlankLines_above {tail kept : Text} (comment : Commented tail)
    (settled : BlankLines.Settled tail)
    (line : atLineStart (charBefore (some '\n') kept) = true) :
    ∃ rest, collapseBlankLines (unlines [first, second] ++ (kept ++ tail)) =
      unlines [first, second] ++ rest ∧ Above tail rest := by
  -- What is kept, behind the line feed of the second line, ends in a line feed.
  obtain ⟨inner, split⟩ : ∃ inner, '\n' :: (kept ++ tail) = inner ++ '\n' :: tail := by
    rcases List.eq_nil_or_concat kept with rfl | ⟨init, last, rfl⟩
    · exact ⟨[], rfl⟩
    · rw [List.concat_eq_append, charBefore_append] at line
      have feed : last = '\n' := by simpa [atLineStart] using line
      exact ⟨'\n' :: init, by simp [feed]⟩
  rw [collapseBlankLines_opening firstCalm secondCalm solid, split]
  generalize charBefore (some '\n') second = before
  have collapsed := collapsed_piecesFrom before (inner ++ '\n' :: tail)
  obtain ⟨stays, text⟩ := collapsed_above comment settled before inner
  rw [text, ← split] at collapsed
  rw [text]
  cases stays with
  | nil => exact ⟨tail, by simp, .here⟩
  | cons c stays =>
    obtain rfl := Option.some.inj collapsed.head
    exact ⟨stays ++ '\n' :: tail, by simp, .lines stays⟩

/-- What is done to a flattened text in the end keeps its first two lines and a comment with
what follows it, whatever stands between them. -/
theorem tidy_above {lines : List Text} (calm : ∀ line ∈ lines, Calm line)
    (gaps : SingleGaps lines) (comment : Commented (unlines lines)) (on : List Preamble.Feature)
    (front : Text) :
    ∃ rest, tidy on (unlines [first, second] ++ (front ++ '\n' :: unlines lines)) =
      unlines [first, second] ++ rest ∧ Above (unlines lines) rest := by
  have quiet : ∀ before, atLineStart before = true →
      piecesFrom Preamble.featurePragma 0 before (unlines lines) = (unlines lines).map .char := by
    intro before _
    simpa [piecesFrom] using piecesFrom_calm calm before []
  have opening : ∀ line ∈ [first, second], Calm line :=
    List.forall_mem_cons.mpr ⟨firstCalm, List.forall_mem_singleton.mpr secondCalm⟩
  have before : charBefore none (unlines [first, second]) = some '\n' := by simp
  obtain ⟨kept, text, line⟩ := @firstPragmas_above _ comment quiet (some '\n') (some '\n') _
    (.lines front) (fun _ => rfl) id on
  rw [tidy, Text.pieces, piecesFrom_calm opening, firstPragmas_chars, before, text]
  exact collapseBlankLines_above firstCalm secondCalm solid comment (settled_calm calm gaps) line

end Opening

end Flatten

end TokenForge

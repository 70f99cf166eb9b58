import TokenForge.Proofs.Flatten.SelfContained
import TokenForge.Proofs.Text.Parts

/-!
# Where hits end

A directive, a license line and a version pragma end where a part of the text ends, except
that they may take white space from the part that follows (`Settles`).  A text from which
hits are left out has therefore no parts of its own: each is a part of the text before,
perhaps without white space at its beginning (`parts_trimmed`).

A directive stands where a part starts also in a text in which the directives before it were
replaced, as long as what replaced them was closed (`Seamed`).
-/

namespace TokenForge

open Text
open Import (Closed closed_append closed_concat closed_nil mayStart)

/-! ## What follows a hit -/

/-- What follows a covered text begins with a part, but for white space that is covered, which
may be so behind a semicolon. -/
def Settles (covered rest : Text) : Prop :=
  rest = [] ∨ ∃ statement inner, covered = statement ++ inner ∧ Closed statement ∧ InnerBlanks inner ∧
    (inner = [] ∨ statement.getLast? = some ';')

variable {covered rest : Text}

/-- A covered text that ends in a line feed or a semicolon. -/
theorem closed_of_suffix {c : Char} (closing : mayStart (some c) = true)
    (suffix : c :: rest <:+ covered ++ rest) : Closed covered := by
  obtain ⟨front, split⟩ := suffix
  have whole : covered ++ rest = (front ++ [c]) ++ rest := by simpa using split.symm
  rw [List.append_cancel_right whole]
  exact closed_concat closing

theorem settles_of_closed (closed : Closed covered) : Settles covered rest :=
  .inr ⟨covered, [], by simp, closed, by simp [InnerBlanks], .inl rfl⟩

theorem settles_of_suffix_semicolon {inner : Text} (blank : InnerBlanks inner)
    (suffix : ';' :: (inner ++ rest) <:+ covered ++ rest) : Settles covered rest := by
  obtain ⟨front, split⟩ := suffix
  have whole : covered ++ rest = (front ++ [';'] ++ inner) ++ rest := by simpa using split.symm
  exact .inr ⟨front ++ [';'], inner, List.append_cancel_right whole, closed_concat rfl, blank,
    .inr (by simp)⟩

theorem Settles.parts (h : Settles covered rest) :
    ∀ part ∈ parts rest, ∃ inner, InnerBlanks inner ∧ inner ++ part ∈ parts (covered ++ rest) := by
  intro part member
  rcases h with rfl | ⟨statement, inner, rfl, closed, blank, _⟩
  · cases member
  have some_rest : rest ≠ [] := by
    rintro rfl
    cases member
  obtain ⟨first, more, split, longer⟩ := parts_inner_append blank some_rest
  rw [List.append_assoc, parts_append closed, longer]
  rw [split] at member
  rcases List.mem_cons.mp member with rfl | later
  · exact ⟨inner, blank, by simp⟩
  · exact ⟨[], by simp [InnerBlanks], by simp [later]⟩

/-! ## Directives -/

namespace Import

theorem afterLineEnd_cases (s : Text) : afterLineEnd s = [] ∨ afterLineEnd s = s ∨
    '\n' :: afterLineEnd s <:+ s := by
  have spaces := dropSpaces_suffix s
  unfold afterLineEnd
  split
  · exact .inl rfl
  · next rest left =>
    rw [left] at spaces
    exact .inr (.inr spaces)
  · next rest left =>
    rw [left] at spaces
    exact .inr (.inr ((List.suffix_cons _ _).trans spaces))
  · exact .inr (.inl rfl)

/-- A directive ends in a line feed or a semicolon, or at the end of the text. -/
theorem directive_ends {before : Option Char} {d : Directive}
    (h : directive before (covered ++ rest) = some (d, rest)) : rest = [] ∨ Closed covered := by
  generalize whole : covered ++ rest = s at h
  rw [directive, Option.ite_none_right_eq_some] at h
  simp only [Option.bind_eq_bind, Option.bind_eq_some_iff, Option.pure_def, Option.some.injEq,
    Prod.mk.injEq] at h
  obtain ⟨_, behind, word, left, blanks, ⟨path, a⟩, taken, b, semicolon, _, rfl⟩ := h
  have statement : ';' :: b <:+ s := by
    calc ';' :: b
      _ = dropBlanks ((afterAlias? a).getD a) := (after?_eq_some_iff.mp semicolon).symm
      _ <:+ (afterAlias? a).getD a := dropBlanks_suffix _
      _ <:+ a := getD_suffix suffix_of_afterAlias? a
      _ <:+ (afterClause? left).getD left := suffix_of_takePath? taken
      _ <:+ left := getD_suffix suffix_of_afterClause? left
      _ <:+ behind := suffix_of_dropBlanks1? blanks
      _ <:+ dropSpaces s := suffix_of_after? word
      _ <:+ s := dropSpaces_suffix s
  rw [← whole] at statement
  rcases afterLineEnd_cases b with nothing | same | feed
  · exact .inl nothing
  · rw [same] at statement ⊢
    exact .inr (closed_of_suffix (c := ';') rfl statement)
  · exact .inr (closed_of_suffix (c := '\n') rfl
      (feed.trans ((List.suffix_cons _ b).trans statement)))

end Import

/-! ## Preamble lines -/

namespace Preamble

/-- What `afterStatement` reads is white space within a line, and perhaps the line feed. -/
theorem afterStatement_cases (s : Text) : ∃ inner, InnerBlanks inner ∧
    (s = inner ++ afterStatement s ∨ s = inner ++ '\n' :: afterStatement s) := by
  have blank : InnerBlanks (s.takeWhile isSpaceOrTab) := by
    intro c member
    have space : isSpaceOrTab c = true := List.mem_takeWhile_imp member
    exact ⟨isBlank_of_isSpaceOrTab space, mayStart_of_isSpaceOrTab space⟩
  have whole : s = s.takeWhile isSpaceOrTab ++ dropSpaces s :=
    (List.takeWhile_append_dropWhile ..).symm
  generalize s.takeWhile isSpaceOrTab = spaces at blank whole
  unfold afterStatement
  generalize dropSpaces s = t at whole ⊢
  subst whole
  split
  · next after =>
    have longer : InnerBlanks (spaces ++ ['\r']) := by
      intro c member
      rcases List.mem_append.mp member with before | last
      · exact blank c before
      · rw [List.mem_singleton.mp last]
        decide
    refine ⟨spaces ++ ['\r'], longer, ?_⟩
    dsimp only
    split
    · next rest feed => exact .inr (feed ▸ List.append_cons ..)
    · exact .inl (List.append_cons ..)
  · refine ⟨spaces, blank, ?_⟩
    dsimp only
    split
    · next rest feed => exact .inr (feed ▸ rfl)
    · exact .inl rfl

theorem license_settles {before : Option Char} {a : Unit}
    (h : license before (covered ++ rest) = some (a, rest)) : Settles covered rest := by
  generalize whole : covered ++ rest = s at h
  rw [license, Option.ite_none_right_eq_some] at h
  obtain ⟨_, h⟩ := h
  simp only [Option.bind_eq_bind, Option.bind_eq_some_iff, Option.pure_def] at h
  obtain ⟨behind, word, left, name, h⟩ := h
  have line := List.dropWhile_suffix (l := left) (· != '\n')
  split at h
  · cases h
    exact .inl rfl
  · next c after ending =>
    cases h
    obtain rfl : c = '\n' := by simpa using stops_dropWhile (· != '\n') left c (by rw [ending]; rfl)
    rw [ending] at line
    refine settles_of_closed (@closed_of_suffix covered rest '\n' rfl ?_)
    calc '\n' :: rest
      _ <:+ left := line
      _ <:+ dropBlanks behind := suffix_of_after? name
      _ <:+ behind := dropBlanks_suffix behind
      _ <:+ dropSpaces s := suffix_of_after? word
      _ <:+ s := dropSpaces_suffix s
      _ = covered ++ rest := whole.symm

theorem versionPragma_settles {before : Option Char} {a : Unit}
    (h : versionPragma before (covered ++ rest) = some (a, rest)) : Settles covered rest := by
  generalize whole : covered ++ rest = s at h
  rw [versionPragma, Option.ite_none_right_eq_some] at h
  obtain ⟨_, h⟩ := h
  simp only [Option.bind_eq_bind, Option.bind_eq_some_iff, Option.pure_def] at h
  obtain ⟨behind, word, left, blanks, body, name, h⟩ := h
  have line := List.dropWhile_suffix (l := body) (· != ';')
  split at h
  · next c after _ ending =>
    rw [Option.ite_none_right_eq_some] at h
    obtain ⟨_, ⟨⟩⟩ := h
    obtain rfl : c = ';' := by simpa using stops_dropWhile (· != ';') body c (by rw [ending]; rfl)
    rw [ending] at line
    have statement : ';' :: after <:+ covered ++ afterStatement after := by
      calc ';' :: after
        _ <:+ body := line
        _ <:+ left := suffix_of_after? name
        _ <:+ behind := suffix_of_dropBlanks1? blanks
        _ <:+ dropSpaces s := suffix_of_after? word
        _ <:+ s := dropSpaces_suffix s
        _ = _ := whole.symm
    obtain ⟨inner, blank, same | same⟩ := afterStatement_cases after
    · refine settles_of_suffix_semicolon blank ?_
      rwa [← same]
    · refine settles_of_closed (@closed_of_suffix covered (afterStatement after) '\n' rfl ?_)
      calc '\n' :: afterStatement after
        _ <:+ after := ⟨inner, same.symm⟩
        _ <:+ ';' :: after := List.suffix_cons _ _
        _ <:+ _ := statement
  · cases h

end Preamble

/-! ## Parts of what is left -/

namespace Flatten

/-- A property that holds of a text that is cut behind a part if it holds of both sides, and that
holds behind hits, holds of what is left when hits are left out. -/
theorem holds_of_trimmed {P : Text → Prop}
    (cut : ∀ {front rest}, Closed front → (P (front ++ rest) ↔ P front ∧ P rest)) {α : Type}
    {find : Recogniser α} {start : Option Char → Bool} (anchored : Anchored start find)
    (starts : ∀ {before}, start before = true → mayStart before = true)
    (behind : ∀ {before covered rest a}, find before (covered ++ rest) = some (a, rest) →
      P (covered ++ rest) → P rest)
    {s t : Text} (h : P s) (trimmed : Trimmed (pieces find s) t) : P t := by
  suffices step : ∀ front t, (mayStart none = true → Closed front) → P (front ++ s) →
      Trimmed (piecesFrom find 0 none s) t → P (front ++ t) from
    step [] t (fun _ => closed_nil) h trimmed
  clear trimmed h
  induction (none : Option Char), s using scan_induction anchored with
  | done before =>
    rintro front _ _ h ⟨⟩
    exact h
  | miss before c s missed ih =>
    intro front t _ h trimmed
    rw [piecesFrom_miss missed] at trimmed
    cases trimmed with
    | char trimmed =>
      have := ih (front ++ [c]) _ closed_concat (by simpa using h) trimmed
      simpa using this
  | hit before covered rest a started some_text found ih =>
    intro front t closed h trimmed
    rw [piecesFrom_hit found some_text] at trimmed
    cases trimmed with
    | keep trimmed =>
      rw [← List.append_assoc] at h ⊢
      refine ih (front ++ covered) _ (fun last => ?_) h trimmed
      rwa [closed_append some_text, Closed, ← charBefore_eq_getLast? before some_text]
    | drop trimmed =>
      have closed_front := closed (starts started)
      obtain ⟨first, later⟩ := (cut closed_front).mp h
      exact (cut closed_front).mpr
        ⟨first, ih [] _ (fun _ => closed_nil) (behind found later) trimmed⟩

/-- Every part of what is left is, perhaps behind white space, a part of the text. -/
theorem parts_trimmed {α : Type} {start : Option Char → Bool} {find : Recogniser α}
    (anchored : Anchored start find)
    (starts : ∀ {before}, start before = true → mayStart before = true)
    (settles : ∀ {before covered rest a}, find before (covered ++ rest) = some (a, rest) →
      Settles covered rest) {s t : Text} (trimmed : Trimmed (pieces find s) t) :
    ∀ part ∈ parts t, ∃ inner, InnerBlanks inner ∧ inner ++ part ∈ parts s := by
  refine @holds_of_trimmed (fun t => ∀ part ∈ parts t, ∃ inner, InnerBlanks inner ∧
    inner ++ part ∈ parts s) ?_ α find start anchored starts ?_ s t ?_ trimmed
  · intro front rest closed
    rw [parts_append closed, List.forall_mem_append]
  · intro before covered rest a found kept part member
    obtain ⟨inner, blank, longer⟩ := (settles found).parts part member
    obtain ⟨outer, blank', whole⟩ := kept _ longer
    refine ⟨outer ++ inner, List.forall_mem_append.mpr ⟨blank', blank⟩, ?_⟩
    rwa [List.append_assoc]
  · exact fun part member => ⟨[], by simp [InnerBlanks], member⟩

/-! ## Directives in expansions -/

/-- Every directive stands where a part starts, counted from the directive before it. `read` is
what was read since that one. -/
def Seamed (read : Text) : List (Piece Import.Directive) → Prop
  | [] => True
  | .char c :: pieces => Seamed (read ++ [c]) pieces
  | .hit _ _ :: pieces => Closed read ∧ Seamed [] pieces

theorem seamed_piecesFrom (before : Option Char) (s : Text) :
    ∀ read, (mayStart before = true → Closed read) →
      Seamed read (piecesFrom Import.directive 0 before s) := by
  induction before, s using scan_induction Import.directive_anchored with
  | done before => exact fun _ _ => trivial
  | miss before c s none ih =>
    intro read _
    rw [piecesFrom_miss none]
    exact ih (read ++ [c]) closed_concat
  | hit before covered rest d start some_text found ih =>
    intro read closed
    rw [piecesFrom_hit found some_text]
    exact ⟨closed start, ih [] fun _ => closed_nil⟩

theorem seamed_pieces (s : Text) : Seamed [] (pieces Import.directive s) :=
  seamed_piecesFrom none s [] fun _ => closed_nil

end Flatten

end TokenForge

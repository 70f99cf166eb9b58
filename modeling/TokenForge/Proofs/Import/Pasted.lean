import TokenForge.Proofs.Flatten.DirectiveLine

/-!
# Directives in lines with pasted text

Some texts in a printed source are not the printer's own: they are pasted.  A line is
`Sealed` if its semicolons stand at its end or in a pasted text, behind which a double
quote stands or the line ends, and `Harmless` if it does not begin with `import` either.

In harmless lines a directive can start in one place only, behind a semicolon of a pasted
text.  `Injected` says that one does, and `found_eq_nil_iff` that this decides whether the
lines hold a directive at all.
-/

namespace TokenForge

namespace Import

open Text

/-! ## Edges -/

/-- What stands behind a pasted text: nothing, or a double quote or a line feed and more. -/
def AtEdge (s : Text) : Prop := ∀ c ∈ s.head?, c = '"' ∨ c = '\n'

theorem AtEdge.stops {s : Text} (h : AtEdge s) {p : Char → Bool} (quote : p '"' = false)
    (feed : p '\n' = false) : Stops p s := by
  intro c member
  rcases h c member with rfl | rfl
  · exact quote
  · exact feed

theorem AtEdge.append_lineFeed {s : Text} (h : AtEdge s) (after : Text) :
    AtEdge (s ++ '\n' :: after) := by
  cases s with
  | nil => simp [AtEdge]
  | cons c s => simpa [AtEdge] using h

/-- Whether a text begins with `import`, after spaces and tabs. -/
def opens (s : Text) : Bool := startsWith "import" (dropSpaces s)

/-- A directive that starts before an edge has its `import` there. -/
theorem opens_of_directive {before : Option Char} {part after : Text} {d : Directive × Text}
    (edge : AtEdge after) (h : directive before (part ++ after) = some d) : opens part = true := by
  unfold directive at h
  split at h
  · rw [dropSpaces, dropWhile_append_stops (edge.stops (by decide) (by decide))] at h
    cases read : after? "import" (part.dropWhile isSpaceOrTab ++ after) with
    | none =>
      rw [read] at h
      cases h
    | some rest =>
      obtain ⟨more, split⟩ :=
        isPrefix_of_after?_of_stops read (edge.stops (by decide) (by decide))
      rw [opens, startsWith, dropSpaces, ← split, after?_append]
      rfl
  · cases h

/-! ## Sealed lines -/

/-- A text without semicolons and line feeds. -/
abbrev Quiet (s : Text) : Prop := ∀ c ∈ s, c ≠ ';' ∧ c ≠ '\n'

theorem quiet_append {s t : Text} (hs : Quiet s) (ht : Quiet t) : Quiet (s ++ t) :=
  List.forall_mem_append.mpr ⟨hs, ht⟩

/-- The semicolon between what was read and what is left belongs to a pasted text. -/
def Within (pasted : List Text) (read left : Text) : Prop :=
  ∃ p ∈ pasted, ∃ before part rest after,
    p = part ++ ';' :: rest ∧ read = before ++ part ∧ left = rest ++ after ∧ AtEdge after

/-- The semicolons of a line stand at its end or belong to a pasted text. -/
structure Sealed (pasted : List Text) (line : Text) : Prop where
  single : '\n' ∉ line
  semicolons : ∀ read left, line = read ++ ';' :: left → left = [] ∨ Within pasted read left

/-- A sealed line that does not begin with `import`. -/
structure Harmless (pasted : List Text) (line : Text) : Prop extends Sealed pasted line where
  plain : opens line = false

/-- Whether a line has no pasted text and is harmless. -/
def isPlain (line : Text) : Bool :=
  line.dropLast.all (fun c => c != ';' && c != '\n') && line.getLast? != some '\n' && !opens line

section Lines

variable {pasted : List Text} {s line read left : Text}

theorem Within.append_left (h : Within pasted read left) (s : Text) :
    Within pasted (s ++ read) left := by
  obtain ⟨p, member, before, part, rest, after, split, rfl, behind, edge⟩ := h
  exact ⟨p, member, s ++ before, part, rest, after, split, by simp, behind, edge⟩

theorem Within.append_right (h : Within pasted read left) (s : Text) :
    Within pasted read (left ++ '\n' :: s) := by
  obtain ⟨p, member, before, part, rest, after, split, same, rfl, edge⟩ := h
  exact ⟨p, member, before, part, rest, after ++ '\n' :: s, split, same, by simp,
    edge.append_lineFeed s⟩

theorem sealed_of_quiet (h : Quiet line) : Sealed pasted line where
  single member := (h _ member).2 rfl
  semicolons read left split := absurd rfl (h ';' (by simp [split])).1

/-- A quiet text before a sealed line. -/
theorem Sealed.append_left (quiet : Quiet s) (h : Sealed pasted line) :
    Sealed pasted (s ++ line) where
  single member := by
    rcases List.mem_append.mp member with inside | inside
    · exact (quiet _ inside).2 rfl
    · exact h.single inside
  semicolons read left split := by
    rcases append_eq_append_cons split with ⟨rest, inside, _⟩ | ⟨more, rfl, later⟩
    · exact absurd rfl (quiet ';' (by simp [inside])).1
    · rcases h.semicolons more left later with last | within
      · exact .inl last
      · exact .inr (within.append_left s)

/-- A quiet text and a semicolon. -/
theorem sealed_statement (quiet : Quiet s) : Sealed pasted (s ++ [';']) :=
  have semicolon : Sealed pasted [';'] :=
    { single := by decide
      semicolons := by
        intro read left split
        cases read with
        | nil => exact .inl (List.cons.inj split).2.symm
        | cons c read => simp at split }
  .append_left quiet semicolon

/-- A pasted text before a sealed line that begins with an edge. -/
theorem Sealed.paste {p : Text} (member : p ∈ pasted) (single : '\n' ∉ p)
    (h : Sealed pasted line) (edge : AtEdge line) : Sealed pasted (p ++ line) where
  single inside := by
    rcases List.mem_append.mp inside with inside | inside
    · exact single inside
    · exact h.single inside
  semicolons read left split := by
    rcases append_eq_append_cons split with ⟨rest, inside, behind⟩ | ⟨more, rfl, later⟩
    · exact .inr ⟨p, member, [], read, rest, line, inside, rfl, behind, edge⟩
    · rcases h.semicolons more left later with last | within
      · exact .inl last
      · exact .inr (within.append_left p)

/-- A pasted text that ends a line. -/
theorem sealed_of_mem {p : Text} (member : p ∈ pasted) (single : '\n' ∉ p) : Sealed pasted p := by
  have rest : Sealed pasted [] := sealed_of_quiet (by decide)
  have := rest.paste member single (by simp [AtEdge])
  rwa [List.append_nil] at this

theorem harmless_of_quiet (quiet : Quiet line) (plain : opens line = false) :
    Harmless pasted line := { toSealed := sealed_of_quiet quiet, plain }

theorem harmless_statement (quiet : Quiet s) (plain : opens (s ++ [';']) = false) :
    Harmless pasted (s ++ [';']) := { toSealed := sealed_statement quiet, plain }

theorem harmless_of_isPlain (h : isPlain line = true) : Harmless pasted line := by
  simp only [isPlain, Bool.and_eq_true, List.all_eq_true, bne_iff_ne, Bool.not_eq_true'] at h
  obtain ⟨⟨first, last⟩, plain⟩ := h
  refine { toSealed := ?_, plain }
  rcases List.eq_nil_or_concat line with rfl | ⟨init, c, rfl⟩
  · exact sealed_of_quiet (by decide)
  · simp only [List.concat_eq_append, List.dropLast_concat, List.getLast?_concat, ne_eq,
      Option.some.injEq] at first last ⊢
    by_cases semicolon : c = ';'
    · rw [semicolon]
      exact sealed_statement first
    · exact sealed_of_quiet (quiet_append first (List.forall_mem_singleton.mpr ⟨semicolon, last⟩))

theorem forall_harmless_of_isPlain {lines : List Text} (h : lines.all isPlain = true) :
    ∀ line ∈ lines, Harmless pasted line :=
  fun line member => harmless_of_isPlain (List.all_eq_true.mp h line member)

end Lines

/-! ## Injected directives -/

/-- Behind a semicolon of a pasted text a directive is found. -/
def Injected (pasted : List Text) (s : Text) : Prop :=
  ∃ read left d, s = read ++ ';' :: left ∧ Within pasted read left ∧
    directive (some ';') left = some d

/-- Behind a semicolon of a text, after spaces and tabs, `import` stands. -/
def HasOpening (p : Text) : Prop := ∃ part rest, p = part ++ ';' :: rest ∧ opens rest = true

/-- Behind a semicolon of a text a whole directive stands, up to its own semicolon. -/
def HasDirective (p : Text) : Prop :=
  ∃ (part : Text) (d : Flatten.DirectiveLine) (rest : Text),
    p = part ++ ';' :: (d.statement ++ rest)

section Sources

variable {pasted lines : List Text} {read left : Text}

theorem directive_lineFeed (s : Text) : directive (some ';') ('\n' :: s) = none := rfl

/-- In sealed lines a directive behind a semicolon is behind one of a pasted text. -/
theorem within_of_directive (h : ∀ line ∈ lines, Sealed pasted line)
    (split : unlines lines = read ++ ';' :: left) {d : Directive × Text}
    (found : directive (some ';') left = some d) : Within pasted read left := by
  obtain ⟨line, member, before, part, rest, after, inside, rfl, rfl⟩ :=
    exists_line_of_unlines_eq (by decide) split
  rcases (h line member).semicolons part rest inside with rfl | within
  · rw [List.nil_append, directive_lineFeed] at found
    cases found
  · exact (within.append_right after).append_left before

/-- At the beginning of a harmless line there is no directive. -/
theorem directive_eq_none_of_atLineStart (h : ∀ line ∈ lines, Harmless pasted line)
    (split : unlines lines = read ++ left)
    (start : atLineStart (charBefore (some '\n') read) = true) (before : Option Char) :
    directive before left = none := by
  obtain ⟨passed, after, rfl, rfl⟩ :=
    exists_lines_of_atLineStart (fun line member => (h line member).single) split start
  cases after with
  | nil => cases before <;> simp [directive, dropSpaces, after?]
  | cons line after =>
    cases found : directive before (unlines (line :: after)) with
    | none => rfl
    | some d =>
      rw [unlines_cons] at found
      have opening := opens_of_directive (by simp [AtEdge]) found
      rw [(h line (by simp)).plain] at opening
      cases opening

/-- Harmless lines hold a directive if and only if one is injected. -/
theorem found_eq_nil_iff (h : ∀ line ∈ lines, Harmless pasted line) :
    found (piecesFrom directive 0 (some '\n') (unlines lines)) = [] ↔
      ¬ Injected pasted (unlines lines) := by
  rw [Text.found_eq_nil_iff]
  constructor
  · rintro nowhere ⟨read, left, d, split, _, found⟩
    have some_left : left ≠ [] := by
      rintro rfl
      cases found
    have here := nowhere (read ++ [';']) left (by simp [split]) some_left
    rw [charBefore_append] at here
    rw [charBefore_cons, charBefore_nil, found] at here
    cases here
  · intro clean read left split _
    cases found : directive (charBefore (some '\n') read) left with
    | none => rfl
    | some d =>
      have start : mayStart (charBefore (some '\n') read) = true := by
        cases start : mayStart (charBefore (some '\n') read) with
        | true => rfl
        | false => simp [directive, start] at found
      by_cases lineStart : atLineStart (charBefore (some '\n') read) = true
      · rw [directive_eq_none_of_atLineStart h split lineStart] at found
        cases found
      · cases before : charBefore (some '\n') read with
        | none => simp [before, atLineStart] at lineStart
        | some c =>
          rw [before] at start lineStart found
          simp only [mayStart, atLineStart, Bool.or_eq_true, beq_iff_eq] at start lineStart
          obtain rfl := start.resolve_left lineStart
          rcases charBefore_eq_some before with ⟨_, feed⟩ | ⟨passed, rfl⟩
          · cases feed
          · rw [List.append_assoc] at split
            have sealed_ : ∀ line ∈ lines, Sealed pasted line :=
              fun line member => (h line member).toSealed
            have within := within_of_directive sealed_ split found
            exact absurd ⟨passed, left, d, split, within, found⟩ clean

/-- Lines without pasted text do not matter. -/
theorem injected_append_iff {more : List Text} (first : ∀ line ∈ lines, Sealed [] line)
    (h : ∀ line ∈ more, Sealed pasted line) :
    Injected pasted (unlines (lines ++ more)) ↔ Injected pasted (unlines more) := by
  rw [unlines_append]
  constructor
  · rintro ⟨read, left, d, split, _, found⟩
    rcases append_eq_append_cons split with ⟨rest, here, rfl⟩ | ⟨passed, rfl, later⟩
    · obtain ⟨line, member, before, part, rest, after, inside, rfl, rfl⟩ :=
        exists_line_of_unlines_eq (by decide) here
      rcases (first line member).semicolons part rest inside with rfl | ⟨p, absent, _⟩
      · rw [List.nil_append, List.cons_append, directive_lineFeed] at found
        cases found
      · cases absent
    · exact ⟨passed, left, d, later, within_of_directive h later found, found⟩
  · rintro ⟨read, left, d, split, within, found⟩
    exact ⟨unlines lines ++ read, left, d, by simp [split], within.append_left _, found⟩

/-- An injected directive has its `import` in the pasted text, behind the semicolon. -/
theorem hasOpening_of_injected {s : Text} (h : Injected pasted s) : ∃ p ∈ pasted, HasOpening p := by
  obtain ⟨_, left, d, _, ⟨p, member, _, part, rest, after, split, _, rfl, edge⟩, found⟩ := h
  exact ⟨p, member, part, rest, split, opens_of_directive edge found⟩

/-- A whole directive in a text that is pasted into one of the lines is injected. -/
theorem injected_of_hasDirective (h : ∀ line ∈ lines, Sealed pasted line) {before p after : Text}
    (member : before ++ (p ++ after) ∈ lines) (holds : HasDirective p) :
    Injected pasted (unlines lines) := by
  obtain ⟨part, d, rest, split⟩ := holds
  obtain ⟨passed, more, rfl⟩ := List.append_of_mem member
  have found := @Flatten.directive_statement d (some ';') rfl
    (rest ++ (after ++ '\n' :: unlines more))
  have whole : unlines (passed ++ (before ++ (p ++ after)) :: more) =
      (unlines passed ++ (before ++ part)) ++
        ';' :: (d.statement ++ (rest ++ (after ++ '\n' :: unlines more))) := by
    simp [split]
  exact ⟨_, _, _, whole, within_of_directive h whole found, found⟩

end Sources

end Import

end TokenForge

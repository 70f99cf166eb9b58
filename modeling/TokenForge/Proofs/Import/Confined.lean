import TokenForge.Proofs.Flatten.Anchored

/-!
# Where `import` stands

A text is `Free` if in it no `import` stands before white space or at the end: no directive
is found in it then, whatever stands before it.  Free texts may be put together where a
directive may start (`Closed`), for neither a line feed nor a semicolon is a letter of the
word.

A text is `Confined` if every such `import` lies inside a directive.  Between two
directives it is free then, and closed before each directive (`segmented_of_confined`).
-/

namespace TokenForge

namespace Import

open Text

/-! ## Free texts -/

/-- A text begins with white space or is empty. -/
def AtBlank (s : Text) : Prop := ∀ c ∈ s.head?, isBlank c = true

instance : (s : Text) → Decidable (AtBlank s)
  | [] => isTrue (by simp [AtBlank])
  | c :: _ => decidable_of_iff (isBlank c = true) (by simp [AtBlank])

/-- In a text no `import` stands before white space or at the end. -/
def Free (s : Text) : Prop := ∀ read rest, s = read ++ ("import" ++ rest) → ¬ AtBlank rest

/-- What follows a text may be a directive. -/
def Closed (s : Text) : Prop := mayStart s.getLast? = true

variable {a b s : Text}

theorem atBlank_of_append (h : AtBlank (a ++ b)) : AtBlank a := by
  cases a with
  | nil => simp [AtBlank]
  | cons c a => simpa [AtBlank] using h

theorem AtBlank.append (h : AtBlank a) (some_text : a ≠ []) (b : Text) : AtBlank (a ++ b) := by
  cases a with
  | nil => exact absurd rfl some_text
  | cons c a => simpa [AtBlank] using h

theorem closed_nil : Closed [] := rfl

theorem closed_concat {c : Char} (start : mayStart (some c) = true) : Closed (s ++ [c]) := by
  rw [Closed, List.getLast?_concat, start]

theorem closed_append (some_text : b ≠ []) : Closed (a ++ b) ↔ Closed b := by
  obtain ⟨c, last⟩ := List.getLast?_isSome.mpr some_text |> Option.isSome_iff_exists.mp
  rw [Closed, Closed, List.getLast?_append, last, Option.some_or]

theorem Closed.not_mem (h : Closed s) : ∀ c ∈ s.getLast?, c ∉ "import".toList := by
  intro c last
  rw [Closed, last] at h
  simp only [mayStart, Bool.or_eq_true, beq_iff_eq] at h
  rcases h with rfl | rfl <;> decide

theorem Closed.rest_ne_nil {read rest : Text} (h : Closed s)
    (split : s = read ++ ("import" ++ rest)) : rest ≠ [] := by
  rintro rfl
  have last : 't' ∈ s.getLast? := by simp [split]
  exact h.not_mem 't' last (by decide)

theorem Free.of_suffix (h : Free s) (suffix : a <:+ s) : Free a := by
  obtain ⟨front, rfl⟩ := suffix
  intro read rest split
  exact h (front ++ read) rest (by rw [split, List.append_assoc])

/-- Before a closed end, and before white space, what is left of a free text is free. -/
theorem Free.left (h : Free (a ++ b)) (edge : Closed a ∨ AtBlank b) : Free a := by
  intro read rest split blank
  by_cases some_rest : rest = []
  · subst some_rest
    rcases edge with closed | behind
    · exact closed.rest_ne_nil split rfl
    · exact h read b (by simp [split]) behind
  · exact h read (rest ++ b) (by simp [split]) (blank.append some_rest b)

/-- Free texts may be put together where the word does not go on. -/
theorem Free.append (ha : Free a) (hb : Free b)
    (seam : ∀ c ∈ a.getLast?, c ∈ "import".toList → ∀ d ∈ b.head?, d ∉ "import".toList) :
    Free (a ++ b) := by
  intro read rest split blank
  rcases List.append_eq_append_iff.mp split with ⟨more, _, behind⟩ | ⟨part, before, whole⟩
  · exact hb more rest behind blank
  rcases List.append_eq_append_iff.mp whole with ⟨left, rfl, rfl⟩ | ⟨left, word, behind⟩
  · exact ha read left before (atBlank_of_append blank)
  · -- The word is cut in two, of which neither part can be empty.
    rcases List.eq_nil_or_concat part with rfl | ⟨init, c, rfl⟩
    · rw [List.nil_append] at word
      exact hb [] rest (by rw [behind, ← word, List.nil_append]) blank
    cases left with
    | nil =>
      rw [List.append_nil] at word
      exact ha read [] (by rw [before, ← word, List.append_nil]) (by simp [AtBlank])
    | cons d left =>
      refine seam c (by simp [before]) ?_ d (by simp [behind]) ?_
      · rw [word]
        simp
      · rw [word]
        simp

theorem Free.append_of_closed (ha : Free a) (closed : Closed a) (hb : Free b) : Free (a ++ b) :=
  ha.append hb fun c last letter => absurd letter (closed.not_mem c last)

theorem free_of_forall (h : ∀ c ∈ s, c ∉ "import".toList) : Free s := by
  rintro read rest rfl
  exact absurd (by decide) (h 'i' (by simp))

theorem Free.append_of_forall (ha : Free a) (h : ∀ c ∈ b, c ∉ "import".toList) : Free (a ++ b) :=
  ha.append (free_of_forall h) fun _ _ _ d first => h d (List.mem_of_mem_head? first)

theorem Free.directive_eq_none (h : Free s) (before : Option Char) : directive before s = none := by
  cases found : directive before s with
  | none => rfl
  | some hit =>
    obtain ⟨_, behind, left, word, blanks, _⟩ := directive_eq_some found
    obtain ⟨spaces, whole⟩ := dropSpaces_suffix s
    have blank : AtBlank behind := by
      cases behind with
      | nil => simp [AtBlank]
      | cons c behind =>
        rw [dropBlanks1?, Option.ite_none_right_eq_some] at blanks
        simpa [AtBlank] using blanks.1
    rw [after?_eq_some_iff] at word
    exact absurd blank (h spaces behind (by rw [← whole, word]))

theorem Free.pieces_eq (h : Free s) : pieces directive s = s.map .char :=
  pieces_of_quiet fun before _ suffix _ => (h.of_suffix suffix).directive_eq_none before

/-! ## Confined texts -/

/-- Where the hits of a scan begin and end, counted from a position. -/
def spans {α : Type} (position : Nat) : List (Piece α) → List (Nat × Nat)
  | [] => []
  | .char _ :: pieces => spans (position + 1) pieces
  | .hit _ covered :: pieces =>
    (position, position + covered.length) :: spans (position + covered.length) pieces

/-- In a text every `import` before white space or at the end lies inside one of the spans. -/
def ConfinedTo (spans : List (Nat × Nat)) (s : Text) : Prop :=
  ∀ read rest, s = read ++ ("import" ++ rest) → AtBlank rest →
    ∃ span ∈ spans, span.1 ≤ read.length ∧ (read ++ "import").length ≤ span.2

/-- In a text every `import` before white space or at the end lies inside a directive. -/
def Confined (s : Text) : Prop := ConfinedTo (spans 0 (pieces directive s)) s

/-- Whether spans hold the word at a position, if it stands there before white space or at the
end. -/
def isConfinedAt (spans : List (Nat × Nat)) (s : Text) (n : Nat) : Bool :=
  match after? "import" (s.drop n) with
  | none => true
  | some rest =>
    !decide (AtBlank rest) ||
      spans.any fun span => span.1 ≤ n && n + "import".toList.length ≤ span.2

theorem confinedTo_iff {spans : List (Nat × Nat)} :
    (List.range (s.length + 1)).all (isConfinedAt spans s) = true ↔ ConfinedTo spans s := by
  rw [List.all_eq_true]
  constructor
  · rintro h read rest rfl blank
    have inside : read.length ∈ List.range ((read ++ ("import" ++ rest)).length + 1) := by
      rw [List.mem_range, List.length_append]
      omega
    have held := h read.length inside
    rw [isConfinedAt, List.drop_left, after?_append] at held
    simp only [blank, decide_true, Bool.not_true, Bool.false_or, List.any_eq_true,
      Bool.and_eq_true, decide_eq_true_eq] at held
    rwa [List.length_append]
  · intro h n inside
    have bound : n ≤ s.length := Nat.le_of_lt_succ (List.mem_range.mp inside)
    rw [isConfinedAt]
    split
    · rfl
    · next rest found =>
      have split : s = s.take n ++ ("import" ++ rest) := by
        rw [← after?_eq_some_iff.mp found, List.take_append_drop]
      by_cases blank : AtBlank rest
      · have held := h _ rest split blank
        rw [List.length_append, List.length_take, Nat.min_eq_left bound] at held
        simpa only [blank, decide_true, Bool.not_true, Bool.false_or, List.any_eq_true,
          Bool.and_eq_true, decide_eq_true_eq] using held
      · simp [blank]

instance (s : Text) : Decidable (Confined s) := decidable_of_iff _ confinedTo_iff

theorem spans_start_le {α : Type} {position : Nat} {pieces : List (Piece α)} :
    ∀ span ∈ spans position pieces, position ≤ span.1 := by
  induction pieces generalizing position with
  | nil => simp [spans]
  | cons piece pieces ih =>
    intro span member
    cases piece with
    | char c => exact Nat.le_of_succ_le (ih span member)
    | hit a covered =>
      rcases List.mem_cons.mp member with rfl | later
      · exact Nat.le_refl _
      · exact Nat.le_trans (Nat.le_add_right _ _) (ih span later)

theorem mem_spans_add {α : Type} {position offset : Nat} {pieces : List (Piece α)}
    {span : Nat × Nat} (h : span ∈ spans (offset + position) pieces) :
    ∃ near ∈ spans position pieces, span = (offset + near.1, offset + near.2) := by
  induction pieces generalizing position with
  | nil => simp [spans] at h
  | cons piece pieces ih =>
    cases piece with
    | char c => exact ih h
    | hit a covered =>
      rcases List.mem_cons.mp h with rfl | later
      · exact ⟨_, .head _, by rw [Nat.add_assoc]⟩
      · obtain ⟨near, member, same⟩ := ih (by rwa [Nat.add_assoc] at later)
        exact ⟨near, .tail _ member, same⟩

/-- Before a directive a text that the spans leave out is free. -/
theorem ConfinedTo.free_left {spans : List (Nat × Nat)} (h : ConfinedTo spans (a ++ b))
    (closed : Closed a) (outside : ∀ span ∈ spans, a.length ≤ span.1) : Free a := by
  intro read rest split blank
  cases rest with
  | nil => exact closed.rest_ne_nil split rfl
  | cons c rest =>
    obtain ⟨span, member, starts, _⟩ :=
      h read (c :: rest ++ b) (by simp [split]) (blank.append (by simp) b)
    have starts' := outside span member
    rw [split, List.length_append, List.length_append, List.length_cons] at starts'
    omega

/-- The span of a hit ends before the rest, and the others are those of the rest. -/
theorem ConfinedTo.behind_hit {α : Type} {pieces : List (Piece α)} {hit : α}
    {read covered rest : Text}
    (h : ConfinedTo (spans read.length (.hit hit covered :: pieces)) (read ++ (covered ++ rest))) :
    ConfinedTo (spans 0 pieces) rest := by
  intro front behind split blank
  have whole : read ++ (covered ++ rest) =
      (read ++ covered ++ front) ++ ("import" ++ behind) := by
    rw [split]
    simp only [List.append_assoc]
  obtain ⟨span, member, starts, ends⟩ := h _ behind whole blank
  simp only [List.length_append] at starts ends
  rcases List.mem_cons.mp member with rfl | later
  · have some_word : 0 < "import".toList.length := by simp
    omega
  · rw [← Nat.add_zero (read.length + covered.length)] at later
    obtain ⟨near, inside, rfl⟩ := mem_spans_add later
    refine ⟨near, inside, by omega, ?_⟩
    rw [List.length_append]
    omega

/-- The text between two directives is free, and closed before a directive.  `read` is what was
read since the last one. -/
def Segmented (read : Text) : List (Piece Directive) → Prop
  | [] => Free read
  | .char c :: pieces => Segmented (read ++ [c]) pieces
  | .hit _ _ :: pieces => Free read ∧ Closed read ∧ Segmented [] pieces

/-- The text of a scan after `read`, which was read since the last directive. -/
theorem segmented_piecesFrom (before : Option Char) (s : Text) :
    ∀ read, (mayStart before = true → Closed read) →
      ConfinedTo (spans read.length (piecesFrom directive 0 before s)) (read ++ s) →
      Segmented read (piecesFrom directive 0 before s) := by
  induction before, s using scan_induction directive_anchored with
  | done before =>
    intro read _ confined front rest split blank
    obtain ⟨_, impossible, _⟩ := confined front rest (by rw [List.append_nil, split]) blank
    cases impossible
  | miss before c s none ih =>
    intro read _ confined
    rw [piecesFrom_miss none] at confined ⊢
    refine ih (read ++ [c]) closed_concat ?_
    simpa [spans] using confined
  | hit before covered rest d start some_text found ih =>
    intro read closed confined
    rw [piecesFrom_hit found some_text] at confined ⊢
    refine ⟨?_, closed start, ih [] (fun _ => closed_nil) ?_⟩
    · exact confined.free_left (closed start) fun span member => spans_start_le span member
    · rw [List.nil_append]
      exact confined.behind_hit

theorem segmented_of_confined (h : Confined s) : Segmented [] (pieces directive s) :=
  segmented_piecesFrom none s [] (fun _ => closed_nil) h

end Import

end TokenForge

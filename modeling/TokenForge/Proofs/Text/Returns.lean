import TokenForge.Proofs.Text.Reading
import TokenForge.Proofs.Text.Scan

/-!
# Carriage returns

A text is `Proper` if every carriage return stands before a line feed.  The functions that read
a beginning of a text do the same to a proper text and to the text without its carriage returns:
what they leave of the one is, without carriage returns, what they leave of the other
(`Indifferent`).  So does a scan, if its recogniser does at every position
(`piecesFrom_withoutReturns`).
-/

namespace TokenForge

namespace Text

/-- A text without its carriage returns. -/
def withoutReturns (s : Text) : Text := s.filter (· != '\r')

/-- Every carriage return of a text stands before a line feed. -/
def Proper : Text → Prop
  | [] => True
  | c :: s => (c = '\r' → s.head? = some '\n') ∧ Proper s

instance decidableProper : (s : Text) → Decidable (Proper s)
  | [] => isTrue trivial
  | _ :: s =>
    have := decidableProper s
    inferInstanceAs (Decidable (_ ∧ _))

variable {a b s t : Text}

@[simp]
theorem withoutReturns_nil : withoutReturns [] = [] := rfl

@[simp]
theorem withoutReturns_return (s : Text) : withoutReturns ('\r' :: s) = withoutReturns s := rfl

theorem withoutReturns_cons {c : Char} (other : c ≠ '\r') (s : Text) :
    withoutReturns (c :: s) = c :: withoutReturns s := by
  simp [withoutReturns, other]

@[simp]
theorem withoutReturns_append (a b : Text) :
    withoutReturns (a ++ b) = withoutReturns a ++ withoutReturns b := List.filter_append ..

theorem withoutReturns_of_not_mem (absent : '\r' ∉ s) : withoutReturns s = s := by
  rw [withoutReturns, List.filter_eq_self]
  intro c member
  simpa using ne_of_mem_of_not_mem member absent

theorem withoutReturns_sublist (s : Text) : (withoutReturns s).Sublist s := List.filter_sublist

theorem Proper.return (h : Proper ('\r' :: s)) : ∃ t, s = '\n' :: t := by
  obtain ⟨here, _⟩ := h
  exact List.head?_eq_some_iff.mp (here rfl)

/-- A proper text is not only carriage returns. -/
theorem Proper.withoutReturns_ne_nil (h : Proper s) (some_text : s ≠ []) :
    withoutReturns s ≠ [] := by
  cases s with
  | nil => exact absurd rfl some_text
  | cons c s =>
    by_cases return_ : c = '\r'
    · subst return_
      obtain ⟨t, rfl⟩ := h.return
      simp [withoutReturns_cons]
    · simp [withoutReturns_cons return_]

theorem Proper.of_suffix (h : Proper s) (suffix : t <:+ s) : Proper t := by
  obtain ⟨front, rfl⟩ := suffix
  induction front with
  | nil => exact h
  | cons c front ih => exact ih h.2

theorem proper_append (ha : Proper a) (hb : Proper b) : Proper (a ++ b) := by
  induction a with
  | nil => exact hb
  | cons c a ih =>
    refine ⟨fun return_ => ?_, ih ha.2⟩
    obtain ⟨rest, rfl⟩ := List.head?_eq_some_iff.mp (ha.1 return_)
    rfl

/-- Before another character than a line feed a proper text may be cut. -/
theorem Proper.left (h : Proper (a ++ b)) (other : b.head? ≠ some '\n') : Proper a := by
  induction a with
  | nil => trivial
  | cons c a ih =>
    refine ⟨fun return_ => ?_, ih h.2⟩
    have feed := h.1 return_
    cases a with
    | nil => exact absurd feed other
    | cons d a => exact feed

theorem proper_of_not_mem (absent : '\r' ∉ s) : Proper s := by
  induction s with
  | nil => trivial
  | cons c s ih =>
    rw [List.mem_cons, not_or] at absent
    exact ⟨fun return_ => absurd return_.symm absent.1, ih absent.2⟩

/-! ## Reading -/

theorem dropWhile_withoutReturns {p : Char → Bool} (same : p '\r' = false → p '\n' = false)
    (proper : Proper s) : (withoutReturns s).dropWhile p = withoutReturns (s.dropWhile p) := by
  induction s with
  | nil => rfl
  | cons c s ih =>
    by_cases return_ : c = '\r'
    · subst return_
      obtain ⟨t, rfl⟩ := proper.return
      cases hp : p '\r' with
      | true => rw [withoutReturns_return, ih proper.2, List.dropWhile_cons_of_pos hp]
      | false =>
        have stop : ¬ p '\n' = true := by simp [same hp]
        rw [withoutReturns_return, withoutReturns_cons (by decide),
          List.dropWhile_cons_of_neg stop, List.dropWhile_cons_of_neg (by simp [hp])]
        exact (withoutReturns_cons (by decide) t).symm
    · rw [withoutReturns_cons return_]
      cases hp : p c with
      | true => rw [List.dropWhile_cons_of_pos hp, List.dropWhile_cons_of_pos hp, ih proper.2]
      | false =>
        rw [List.dropWhile_cons_of_neg (by simp [hp]), List.dropWhile_cons_of_neg (by simp [hp]),
          withoutReturns_cons return_]

theorem takeWhile_withoutReturns {p : Char → Bool} (return_ : p '\r' = true) (s : Text) :
    (withoutReturns s).takeWhile p = withoutReturns (s.takeWhile p) := by
  induction s with
  | nil => rfl
  | cons c s ih =>
    by_cases same : c = '\r'
    · subst same
      rw [withoutReturns_return, ih, List.takeWhile_cons_of_pos return_]
      rfl
    · rw [withoutReturns_cons same]
      cases hp : p c with
      | true =>
        rw [List.takeWhile_cons_of_pos hp, List.takeWhile_cons_of_pos hp, ih,
          withoutReturns_cons same]
      | false =>
        rw [List.takeWhile_cons_of_neg (by simp [hp]), List.takeWhile_cons_of_neg (by simp [hp])]
        rfl

theorem dropSpaces_withoutReturns (proper : Proper s) :
    dropSpaces (withoutReturns s) = withoutReturns (dropSpaces s) :=
  dropWhile_withoutReturns (fun _ => rfl) proper

theorem dropBlanks_withoutReturns (proper : Proper s) :
    dropBlanks (withoutReturns s) = withoutReturns (dropBlanks s) :=
  dropWhile_withoutReturns (fun impossible => nomatch impossible) proper

/-- A function that reads a beginning of a text reads the same with and without carriage
returns. -/
structure Indifferent (read : Text → Option Text) : Prop where
  suffix : ∀ {s rest}, read s = some rest → rest <:+ s
  same : ∀ {s}, Proper s → read (withoutReturns s) = (read s).map withoutReturns

namespace Indifferent

variable {first next : Text → Option Text}

theorem bind (hfirst : Indifferent first) (hnext : Indifferent next) :
    Indifferent fun s => (first s).bind next where
  suffix read := by
    obtain ⟨between, early, late⟩ := Option.bind_eq_some_iff.mp read
    exact (hnext.suffix late).trans (hfirst.suffix early)
  same := by
    intro s proper
    rw [hfirst.same proper]
    cases read : first s with
    | none => rfl
    | some between => exact hnext.same (proper.of_suffix (hfirst.suffix read))

theorem getD (h : Indifferent first) (proper : Proper s) :
    (first (withoutReturns s)).getD (withoutReturns s) = withoutReturns ((first s).getD s) := by
  rw [h.same proper]
  cases first s <;> rfl

end Indifferent

theorem indifferent_after? {word : Text} (single : ∀ c ∈ word, c ≠ '\r' ∧ c ≠ '\n') :
    Indifferent (after? word) where
  suffix := suffix_of_after?
  same := by
    intro s proper
    induction word generalizing s with
    | nil => rfl
    | cons d word ih =>
      obtain ⟨⟨noReturn, noFeed⟩, later⟩ := List.forall_mem_cons.mp single
      cases s with
      | nil => rfl
      | cons c s =>
        by_cases return_ : c = '\r'
        · subst return_
          obtain ⟨t, rfl⟩ := proper.return
          rw [withoutReturns_return, withoutReturns_cons (by decide), after?, if_neg noFeed, after?,
            if_neg noReturn]
          rfl
        · rw [withoutReturns_cons return_, after?, after?]
          split
          · exact ih later proper.2
          · rfl

theorem indifferent_dropBlanks1? : Indifferent dropBlanks1? where
  suffix := suffix_of_dropBlanks1?
  same := by
    intro s proper
    cases s with
    | nil => rfl
    | cons c s =>
      by_cases return_ : c = '\r'
      · subst return_
        obtain ⟨t, rfl⟩ := proper.return
        have blank : dropBlanks1? ('\r' :: '\n' :: t) = some (dropBlanks t) := rfl
        rw [blank, withoutReturns_return, withoutReturns_cons (by decide), Option.map_some,
          ← dropBlanks_withoutReturns proper.2.2]
        rfl
      · rw [withoutReturns_cons return_, dropBlanks1?, dropBlanks1?,
          dropBlanks_withoutReturns proper.2]
        split <;> rfl

theorem indifferent_afterWord? : Indifferent afterWord? where
  suffix := suffix_of_afterWord?
  same := by
    intro s proper
    cases s with
    | nil => rfl
    | cons c s =>
      by_cases return_ : c = '\r'
      · subst return_
        obtain ⟨t, rfl⟩ := proper.return
        rfl
      · rw [withoutReturns_cons return_, afterWord?, afterWord?,
          dropWhile_withoutReturns (fun _ => rfl) proper.2]
        split <;> rfl

theorem atWordEnd_withoutReturns (proper : Proper s) :
    atWordEnd (withoutReturns s) = atWordEnd s := by
  cases s with
  | nil => rfl
  | cons c s =>
    by_cases return_ : c = '\r'
    · subst return_
      obtain ⟨t, rfl⟩ := proper.return
      rfl
    · rw [withoutReturns_cons return_]
      rfl

/-! ## Scans -/

end Text

section Scans

open Text

variable {α : Type} {find : Recogniser α}

/-- The pieces that a piece becomes without carriage returns. -/
def Piece.withoutReturns (f : α → α) : Piece α → List (Piece α)
  | .char c => if c = '\r' then [] else [.char c]
  | .hit a covered => [.hit (f a) (Text.withoutReturns covered)]

namespace Text

/-- Behind a text the character before is the same without carriage returns, unless a line feed
follows. -/
theorem charBefore_withoutReturns {covered rest : Text} (proper : Proper (covered ++ rest))
    (some_rest : rest.head? ≠ some '\n') (before : Option Char) :
    charBefore before (withoutReturns covered) = charBefore before covered := by
  rcases List.eq_nil_or_concat covered with rfl | ⟨front, last, rfl⟩
  · rfl
  · rw [List.concat_eq_append] at proper ⊢
    have other : last ≠ '\r' := by
      rintro rfl
      rw [List.append_assoc] at proper
      have here := proper.of_suffix (List.suffix_append front _)
      exact some_rest (here.1 rfl)
    rw [withoutReturns_append, withoutReturns_cons other, withoutReturns_nil, charBefore_append,
      charBefore_append]
    rfl

/-- A scan of a proper text finds the same without carriage returns, if the recogniser does at
every position.  At a line feed the character before may be another one, for a carriage return may
be missing. -/
theorem piecesFrom_withoutReturns {start : Option Char → Bool} (anchored : Anchored start find)
    (f : α → α) (before : Option Char) (s : Text) :
    Proper s → (∀ read left, s = read ++ left → left ≠ [] → ∀ early,
      (left.head? ≠ some '\n' → early = charBefore before read) →
      find early (withoutReturns left) =
        (find (charBefore before read) left).map fun hit => (f hit.1, withoutReturns hit.2)) →
    ∀ early, (s.head? ≠ some '\n' → early = before) →
      piecesFrom find 0 early (withoutReturns s) =
        (piecesFrom find 0 before s).flatMap (Piece.withoutReturns f) := by
  induction before, s using scan_induction anchored with
  | done before => exact fun _ _ _ _ => rfl
  | miss before c s missed ih =>
    intro proper alike early same
    have later : ∀ early, (s.head? ≠ some '\n' → early = some c) →
        piecesFrom find 0 early (withoutReturns s) =
          (piecesFrom find 0 (some c) s).flatMap (Piece.withoutReturns f) := by
      refine ih proper.2 fun read left split some_left => ?_
      exact alike (c :: read) left (by rw [split]; rfl) some_left
    rw [piecesFrom_miss missed, List.flatMap_cons]
    by_cases return_ : c = '\r'
    · subst return_
      obtain ⟨t, rfl⟩ := proper.return
      rw [withoutReturns_return]
      exact later early (by simp)
    · have here := alike [] (c :: s) rfl (by simp) early same
      rw [charBefore_nil, missed, withoutReturns_cons return_] at here
      rw [withoutReturns_cons return_, piecesFrom_miss here, later (some c) fun _ => rfl]
      simp [Piece.withoutReturns, return_]
  | hit before covered rest a started some_text hit ih =>
    intro proper alike early same
    have here := alike [] (covered ++ rest) rfl (by simp [some_text]) early same
    rw [charBefore_nil, hit, Option.map_some, withoutReturns_append] at here
    have some_text' : withoutReturns covered ≠ [] := by
      intro nothing
      rw [nothing, List.nil_append] at here
      obtain ⟨_, more, some_more, split⟩ := anchored _ _ _ _ here
      exact some_more (List.self_eq_append_left.mp split)
    rw [piecesFrom_hit hit some_text, withoutReturns_append, piecesFrom_hit here some_text',
      List.flatMap_cons]
    congr 1
    refine ih (proper.of_suffix (List.suffix_append _ _)) (fun read left split some_left => ?_) _ ?_
    · intro early same
      rw [← charBefore_append] at same ⊢
      exact alike (covered ++ read) left (by rw [split, List.append_assoc]) some_left early same
    · intro other
      rw [charBefore_withoutReturns proper other, charBefore_eq_getLast? _ some_text,
        charBefore_eq_getLast? _ some_text]

/-- A recogniser that hits at no line feed scans a proper text as it does without carriage returns,
if it does the same at every position. -/
theorem pieces_withoutReturns (anchored : Anchored start find)
    (solid : ∀ before s, find before ('\n' :: s) = none) (f : α → α) (proper : Proper s)
    (same : ∀ read left, s = read ++ left → find (charBefore none read) (withoutReturns left) =
      (find (charBefore none read) left).map fun hit => (f hit.1, withoutReturns hit.2)) :
    pieces find (withoutReturns s) = (pieces find s).flatMap (Piece.withoutReturns f) := by
  refine piecesFrom_withoutReturns anchored f none s proper
    (fun read left split _ early before => ?_) none fun _ => rfl
  by_cases feed : left.head? = some '\n'
  · obtain ⟨rest, rfl⟩ := List.head?_eq_some_iff.mp feed
    rw [withoutReturns_cons (by decide), solid, solid]
    rfl
  · rw [before feed]
    exact same read left split

/-- Replacing hits is the same without carriage returns, if the hits and what is put in their place
are. -/
theorem replace_withoutReturns {s : Text} {f : α → α} {substitute : α → Text}
    (scanned : pieces find (withoutReturns s) = (pieces find s).flatMap (Piece.withoutReturns f))
    (same : ∀ a, substitute (f a) = withoutReturns (substitute a)) :
    replace find substitute (withoutReturns s) = withoutReturns (replace find substitute s) := by
  rw [replace_eq, replace_eq, scanned]
  induction pieces find s with
  | nil => rfl
  | cons piece pieces ih =>
    rw [List.flatMap_cons, List.flatMap_append, ih, List.flatMap_cons, withoutReturns_append]
    congr 1
    cases piece with
    | char c =>
      rw [Piece.withoutReturns]
      split
      · next return_ =>
        subst return_
        rfl
      · next other => exact (withoutReturns_cons other []).symm
    | hit a covered =>
      rw [Piece.withoutReturns, List.flatMap_singleton]
      exact same a

end Text

end Scans

end TokenForge

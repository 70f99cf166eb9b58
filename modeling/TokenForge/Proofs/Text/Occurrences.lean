import Mathlib.Algebra.Ring.Nat
import TokenForge.Proofs.Text.Lines

/-!
# Occurrences of a word

How often a word stands in a text that is put together from parts.  For a word of two
characters the occurrences in two parts add up unless one lies across the seam
(`occurrences_append`), and lines that end in line feeds have no seams that matter
(`occurrences_unlines_append`).  What follows the first occurrence is what follows it in its
part and all that comes later (`afterFirst?_append_of_some`).
-/

namespace TokenForge

namespace Text

/-- The number of places at which a word stands in a text. -/
def occurrences (word : Text) : Text → Nat
  | [] => if startsWith word [] then 1 else 0
  | c :: s => occurrences word s + if startsWith word (c :: s) then 1 else 0

theorem afterFirst?_eq_none_iff {word s : Text} :
    afterFirst? word s = none ↔ occurrences word s = 0 := by
  induction s with
  | nil =>
    rw [afterFirst?, occurrences, startsWith]
    cases after? word [] <;> simp
  | cons c s ih =>
    rw [afterFirst?, occurrences, startsWith]
    cases after? word (c :: s) with
    | some rest => simp
    | none => simpa using ih

/-! ## The first occurrence -/

theorem length_le_of_afterFirst? {word s rest : Text} (h : afterFirst? word s = some rest) :
    word.length ≤ s.length := by
  induction s with
  | nil =>
    rw [afterFirst?, after?_eq_some_iff] at h
    simp [(List.nil_eq_append_iff.mp h).1]
  | cons c s ih =>
    rw [afterFirst?] at h
    cases here : after? word (c :: s) with
    | some behind =>
      rw [after?_eq_some_iff.mp here]
      simp
    | none =>
      rw [here] at h
      exact Nat.le_succ_of_le (ih h)

/-- The first occurrence in a text is the first in a longer one. -/
theorem afterFirst?_append_of_some {word s t rest : Text} (h : afterFirst? word s = some rest) :
    afterFirst? word (s ++ t) = some (rest ++ t) := by
  induction s with
  | nil =>
    rw [afterFirst?, after?_eq_some_iff] at h
    obtain ⟨rfl, rfl⟩ := List.nil_eq_append_iff.mp h
    cases t <;> rfl
  | cons c s ih =>
    rw [afterFirst?] at h
    rw [List.cons_append, afterFirst?]
    cases here : after? word (c :: s) with
    | some behind =>
      rw [here] at h
      obtain rfl := Option.some.inj h
      have more : after? word (c :: (s ++ t)) = some (behind ++ t) := by
        rw [after?_eq_some_iff, ← List.append_assoc, ← after?_eq_some_iff.mp here]
        rfl
      rw [more]
    | none =>
      rw [here] at h
      -- A word that occurs in `s` is too short to reach behind it from its beginning.
      have none : after? word (c :: (s ++ t)) = none := by
        rw [Option.eq_none_iff_forall_ne_some]
        intro behind read
        have prefixed : word <+: c :: s :=
          List.prefix_of_prefix_length_le ⟨behind, (after?_eq_some_iff.mp read).symm⟩
            (List.prefix_append (c :: s) t) (Nat.le_succ_of_le (length_le_of_afterFirst? h))
        obtain ⟨left, same⟩ := prefixed
        rw [after?_eq_some_iff.mpr same.symm] at here
        cases here
      rw [none]
      exact ih h

/-! ## Words of two characters -/

section Pairs

variable {a b : Char}

/-- No word of the two characters lies across the seam of two texts. -/
def Apart (a b : Char) (s t : Text) : Prop := s.getLast? = some a → t.head? ≠ some b

theorem startsWith_pair (c : Char) (s : Text) :
    startsWith [a, b] (c :: s) = decide (a = c ∧ s.head? = some b) := by
  cases s with
  | nil => by_cases h : a = c <;> simp [startsWith, after?, h]
  | cons d s =>
    by_cases h : a = c <;> by_cases h' : b = d <;> simp [startsWith, after?, h, h', eq_comm]

theorem startsWith_append {c : Char} {s t : Text} (apart : Apart a b (c :: s) t) :
    startsWith [a, b] (c :: (s ++ t)) = startsWith [a, b] (c :: s) := by
  rw [startsWith_pair, startsWith_pair, decide_eq_decide]
  cases s with
  | nil =>
    have missed : ¬ (a = c ∧ t.head? = some b) := fun h => apart (by simp [h.1]) h.2
    simpa using missed
  | cons d s => rfl

theorem Apart.tail {c : Char} {s t : Text} (apart : Apart a b (c :: s) t) : Apart a b s t := by
  intro last
  exact apart (by simp [List.getLast?_cons, last])

/-- Occurrences in texts that are apart add up. -/
theorem occurrences_append {s t : Text} (apart : Apart a b s t) :
    occurrences [a, b] (s ++ t) = occurrences [a, b] s + occurrences [a, b] t := by
  induction s with
  | nil =>
    have none : occurrences [a, b] [] = 0 := rfl
    rw [none, List.nil_append, Nat.zero_add]
  | cons c s ih =>
    rw [List.cons_append, occurrences, occurrences, startsWith_append apart, ih apart.tail]
    omega

theorem occurrences_of_first_not_mem {s : Text} (h : a ∉ s) : occurrences [a, b] s = 0 := by
  induction s with
  | nil => rfl
  | cons c s ih =>
    rw [List.mem_cons, not_or] at h
    rw [occurrences, startsWith_pair, ih h.2]
    simp [h.1]

theorem occurrences_of_second_not_mem {s : Text} (h : b ∉ s) : occurrences [a, b] s = 0 := by
  induction s with
  | nil => rfl
  | cons c s ih =>
    rw [List.mem_cons, not_or] at h
    have behind : s.head? ≠ some b := fun first => h.2 (List.mem_of_head? first)
    rw [occurrences, startsWith_pair, ih h.2]
    simp [behind]

theorem apart_of_last {s : Text} {c : Char} (last : s.getLast? = some c) (other : c ≠ a)
    (t : Text) : Apart a b s t := by
  intro seam
  rw [last] at seam
  exact absurd (Option.some.inj seam) other

theorem apart_of_head {t : Text} {c : Char} (first : t.head? = some c) (other : c ≠ b) (s : Text) :
    Apart a b s t := by
  intro _ seam
  rw [first] at seam
  exact other (Option.some.inj seam)

/-- If the first text does not hold the word, its first occurrence is in the second. -/
theorem afterFirst?_append_of_none {s t : Text} (apart : Apart a b s t)
    (h : occurrences [a, b] s = 0) : afterFirst? [a, b] (s ++ t) = afterFirst? [a, b] t := by
  induction s with
  | nil => rfl
  | cons c s ih =>
    rw [occurrences, Nat.add_eq_zero_iff] at h
    have missed : after? [a, b] (c :: (s ++ t)) = none := by
      have starts : startsWith [a, b] (c :: (s ++ t)) = false := by
        rw [startsWith_append apart]
        simpa using h.2
      simpa [startsWith] using starts
    rw [List.cons_append, afterFirst?, missed]
    exact ih apart.tail h.1

/-- The first occurrence is the one behind a text if and only if the text does not hold the
word. -/
theorem afterFirst?_append_word_iff {s t : Text} (apart : Apart a b s ([a, b] ++ t)) :
    afterFirst? [a, b] (s ++ ([a, b] ++ t)) = some t ↔ occurrences [a, b] s = 0 := by
  constructor
  · intro first
    rw [← afterFirst?_eq_none_iff, Option.eq_none_iff_forall_ne_some]
    intro rest earlier
    rw [afterFirst?_append_of_some earlier] at first
    have longer := congrArg List.length (Option.some.inj first)
    simp at longer
    omega
  · intro none
    rw [afterFirst?_append_of_none apart none]
    simp [afterFirst?, after?]

/-- Occurrences in lines and in what follows them. -/
theorem occurrences_unlines_append (first : a ≠ '\n') (second : b ≠ '\n') (lines : List Text)
    (t : Text) : occurrences [a, b] (unlines lines ++ t) =
      (lines.map (occurrences [a, b])).sum + occurrences [a, b] t := by
  induction lines with
  | nil => simp
  | cons line lines ih =>
    have seam : Apart a b line ('\n' :: (unlines lines ++ t)) :=
      apart_of_head (by rfl) second.symm line
    have feed : startsWith [a, b] ('\n' :: (unlines lines ++ t)) = false := by
      rw [startsWith_pair]
      simp [first]
    rw [unlines_cons, List.append_assoc, List.cons_append, occurrences_append seam, occurrences,
      feed, ih, List.map_cons, List.sum_cons]
    simp [Nat.add_assoc]

end Pairs

end Text

end TokenForge

import Mathlib.Data.List.TakeWhile
import TokenForge.Proofs.Text.Scan
import TokenForge.Proofs.Text.Stripped
import TokenForge.Version.Pragma

/-!
# The ranges of a source

The `ranges` of a source are those of its version pragmas, in the order of its lines.  Each of
them has no white space at its ends (`stripped_of_mem_ranges`).  The ends are those of what
stands before the semicolon or of a number there: a blank behind an operator is not the last
character, and neither is a zero in front of a digit.
-/

namespace TokenForge

namespace Pragma

open Text

/-- The ranges of the version pragmas of a source. -/
def ranges (source : Text) : List Text := (splitOn '\n' source).filterMap rangeOfLine?

variable {s rest : Text} {before : Option Char}

/-! ## Blanks behind operators -/

theorem head?_closeOperators (s : Text) : (closeOperators false s).head? = s.head? := by
  cases s <;> rfl

theorem getLast?_cons_of_ne_nil {c : Char} (some_text : s ≠ []) :
    (c :: s).getLast? = s.getLast? := by
  obtain ⟨last, same⟩ := Option.isSome_iff_exists.mp (List.getLast?_isSome.mpr some_text)
  rw [List.getLast?_cons, same]
  rfl

theorem getLast?_closeOperators (stop : Stops isBlank s.reverse) (b : Bool) :
    (closeOperators b s).getLast? = s.getLast? := by
  induction s generalizing b with
  | nil => cases b <;> rfl
  | cons c s ih =>
    by_cases nothing : s = []
    · subst nothing
      have solid : isBlank c = false := stops_cons.mp stop
      cases b <;> simp [closeOperators, solid]
    · have same (b : Bool) : (closeOperators b s).getLast? = (c :: s).getLast? := by
        rw [List.reverse_cons] at stop
        rw [getLast?_cons_of_ne_nil nothing, ih (stops_of_isPrefix (List.prefix_append _ _) stop)]
      have some_text (b : Bool) : closeOperators b s ≠ [] := by
        rw [← List.getLast?_isSome, same]
        simp
      cases b with
      | false => rw [closeOperators, getLast?_cons_of_ne_nil (some_text _), same]
      | true =>
        rw [closeOperators]
        split
        · exact same true
        · rw [getLast?_cons_of_ne_nil (some_text _), same]

/-! ## Superfluous zeros -/

/-- All zeros in front of a digit are superfluous, and otherwise all but the last. -/
theorem leadingZeros_zeros (start : atWordStart before = true) (n : Nat)
    (stop : Stops (· == '0') rest) :
    leadingZeros before ('0' :: (List.replicate n '0' ++ rest)) =
      if rest.head?.any isDecimalDigit then some ((), rest)
      else if n = 0 then none else some ((), '0' :: rest) := by
  have read : (List.replicate n '0' ++ rest).dropWhile (· == '0') = rest :=
    dropWhile_append_of_stops (by simp) stop
  simp only [leadingZeros, start, if_true, read]
  cases n with
  | zero =>
    have other : rest.head? ≠ some '0' := by
      intro zero
      cases stop '0' zero
    simp [other]
  | succ n => simp [List.replicate_succ]

/-- Superfluous zeros stand in front of a digit. -/
theorem leadingZeros_eq_some (h : leadingZeros before s = some ((), rest)) :
    atWordStart before = true ∧ (∃ n, s = List.replicate (n + 1) '0' ++ rest) ∧
      rest.head?.any isDecimalDigit = true := by
  have start : atWordStart before = true := by
    unfold leadingZeros at h
    split at h
    · exact (Option.ite_none_right_eq_some.mp h).1
    · cases h
  obtain ⟨t, rfl⟩ : ∃ t, s = '0' :: t := by
    unfold leadingZeros at h
    split at h
    · exact ⟨_, rfl⟩
    · cases h
  obtain ⟨n, behind, rfl, stop⟩ : ∃ n behind, t = List.replicate n '0' ++ behind ∧
      Stops (· == '0') behind := by
    refine ⟨(t.takeWhile (· == '0')).length, t.dropWhile (· == '0'), ?_, stops_dropWhile _ t⟩
    rw [← List.eq_replicate_of_mem fun c member => by simpa using List.mem_takeWhile_imp member,
      List.takeWhile_append_dropWhile]
  rw [leadingZeros_zeros start n stop] at h
  refine ⟨start, ?_⟩
  split at h
  · next digit =>
    obtain rfl : behind = rest := by simpa using h
    exact ⟨⟨n, rfl⟩, digit⟩
  · cases n with
    | zero => simp at h
    | succ n =>
      obtain rfl : '0' :: behind = rest := by simpa using h
      have digit : isDecimalDigit '0' = true := by decide
      refine ⟨⟨n, ?_⟩, digit⟩
      show List.replicate (n + 2) '0' ++ behind = _
      rw [List.replicate_succ', List.append_assoc]
      rfl

theorem leadingZeros_anchored : Anchored atWordStart leadingZeros := by
  intro before s _ rest h
  obtain ⟨start, ⟨n, split⟩, _⟩ := leadingZeros_eq_some h
  exact ⟨start, _, by simp, split⟩

/-- White space is no digit. -/
theorem isDecimalDigit_of_isBlank {c : Char} (h : isBlank c = true) : isDecimalDigit c = false := by
  simp only [isBlank, Bool.or_eq_true, Bool.and_eq_true, decide_eq_true_eq, beq_iff_eq] at h
  have noDigitBlank : ∀ n ∈ wideBlanks, decimalZeros.find?
      (fun first => decide (first ≤ n) && decide (n ≤ first + 9)) = none := by decide +kernel
  rw [isDecimalDigit, digitValue?]
  split
  · rw [if_neg (by omega)]
    rfl
  · have wide : c.toNat ∈ wideBlanks := by
      simp only [wideBlanks, List.mem_append, List.mem_cons, List.not_mem_nil, List.mem_range'_1]
      omega
    rw [noDigitBlank c.toNat wide]
    rfl

/-- A text without its superfluous zeros, behind a character. -/
def withoutZeros (before : Option Char) (s : Text) : Text :=
  (piecesFrom leadingZeros 0 before s).flatMap (replacePiece fun _ => [])

/-- A text without superfluous zeros ends as it did, and does not begin with white space if it did
not. -/
theorem withoutZeros_ends (before : Option Char) (s : Text) :
    (withoutZeros before s).getLast? = s.getLast? ∧
      (Stops isBlank s → Stops isBlank (withoutZeros before s)) := by
  induction before, s using scan_induction leadingZeros_anchored with
  | done before => exact ⟨rfl, id⟩
  | miss before c s missed ih =>
    have whole : withoutZeros before (c :: s) = c :: withoutZeros (some c) s := by
      rw [withoutZeros, piecesFrom_miss missed]
      rfl
    rw [whole, List.getLast?_cons, List.getLast?_cons, ih.1]
    exact ⟨rfl, fun stop => stops_cons.mpr (stops_cons.mp stop)⟩
  | hit before covered rest _ start some_text hit ih =>
    have whole : withoutZeros before (covered ++ rest) =
        withoutZeros (charBefore before covered) rest := by
      rw [withoutZeros, piecesFrom_hit hit some_text]
      rfl
    obtain ⟨_, _, digit⟩ := leadingZeros_eq_some hit
    rw [whole, ih.1]
    cases rest with
    | nil => cases digit
    | cons d rest =>
      refine ⟨by rw [List.getLast?_append]; rfl, fun _ => ih.2 (stops_cons.mpr ?_)⟩
      cases blank : isBlank d with
      | false => rfl
      | true =>
        rw [List.head?_cons, Option.any_some, isDecimalDigit_of_isBlank blank] at digit
        cases digit

/-! ## Ranges -/

theorem stripped_rangeOfLine? {line range : Text} (h : rangeOfLine? line = some range) :
    Stripped range := by
  rw [rangeOfLine?, Option.ite_none_right_eq_some] at h
  obtain ⟨_, h⟩ := h
  obtain ⟨rest, _, rfl⟩ := Option.map_eq_some_iff.mp h
  have inner := stripped_strip (rest.takeWhile (· != ';'))
  generalize strip (rest.takeWhile (· != ';')) = range at inner
  obtain ⟨last, first⟩ := withoutZeros_ends none (closeOperators false range)
  show Stripped (withoutZeros none (closeOperators false range))
  constructor
  · refine first ?_
    rw [Stops, head?_closeOperators]
    exact inner.first
  · rw [Stops, List.head?_reverse, last, getLast?_closeOperators inner.last, ← List.head?_reverse]
    exact inner.last

theorem stripped_of_mem_ranges {source range : Text} (h : range ∈ ranges source) :
    Stripped range := by
  obtain ⟨line, _, read⟩ := List.mem_filterMap.mp h
  exact stripped_rangeOfLine? read

end Pragma

end TokenForge

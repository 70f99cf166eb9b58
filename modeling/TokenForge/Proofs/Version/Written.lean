import Mathlib.Data.List.TakeWhile
import TokenForge.Proofs.Outcome
import TokenForge.Proofs.Text.Lines
import TokenForge.Proofs.Text.Numeral
import TokenForge.Version.Published

/-!
# The written form of a version

A version that is read from one line of ASCII characters is written as it was read
(`render_of_read?`).  Its numbers have no superfluous zeros, which is what makes their written
form unique (`ofNat_ofAsciiDigits`).  Digits of other scripts are read too, and a line break after
the version is, so neither condition can be dropped.

The normal form of a published version is such a line (`plain_render`).
-/

namespace TokenForge

namespace Version

/-! ## Reading -/

/-- ASCII characters on one line. -/
def Plain (s : Text) : Prop := ∀ c ∈ s, c.toNat < 128 ∧ c ≠ '\n'

variable {s rest : Text}

theorem Plain.of_append_right {s t : Text} (h : Plain (s ++ t)) : Plain t :=
  fun c member => h c (List.mem_append_right _ member)

theorem eq_of_takeNumber? (plain : Plain s) {n : Nat} (h : takeNumber? s = some (n, rest)) :
    s = Text.ofNat n ++ rest := by
  unfold takeNumber? at h
  extract_lets ds at h
  have digits : ∀ c ∈ ds, isAsciiDigit c = true := by
    intro c member
    have digit : isDecimalDigit c = true := List.mem_takeWhile_imp member
    have ascii := (plain c (List.takeWhile_prefix _ |>.subset member)).1
    by_contra other
    rw [isDecimalDigit, Text.digitValue?_of_lt ascii, if_neg other] at digit
    cases digit
  split at h
  · cases h
  · rename_i tight
    obtain ⟨m, read, same⟩ := Option.map_eq_some_iff.mp h
    cases same
    obtain ⟨some_digit, value⟩ := Text.toNat?_eq digits read
    have leading : ds.head? = some '0' → ds.length = 1 := by
      intro zero
      have decimal : ds.all isDecimalDigit = true :=
        List.all_eq_true.mpr fun c member => List.mem_takeWhile_imp member
      simp only [hasLeadingZero, zero, decimal, beq_self_eq_true, Bool.true_and, Bool.and_true,
        decide_eq_true_eq] at tight
      have := List.length_pos_iff.mpr some_digit
      omega
    rw [value, Text.ofNat_ofAsciiDigits digits some_digit leading]
    exact (List.takeWhile_append_dropWhile ..).symm

/-- Identifiers as they are written after their mark. -/
def marked (mark : Char) (identifiers : List Text) : Text :=
  if identifiers = [] then [] else mark :: List.intercalate ['.'] identifiers

theorem eq_of_takePart? {mark : Char} {identifiers : List Text}
    (h : takePart? mark s = some (identifiers, rest)) : s = marked mark identifiers ++ rest := by
  unfold takePart? at h
  split at h
  · rename_i c t
    split at h
    · rename_i same
      split at h
      · cases h
      · cases h
        rw [marked, if_neg (Text.splitOn_ne_nil _ _), Text.intercalate_splitOn, same,
          List.cons_append, List.takeWhile_append_dropWhile]
    · cases h
      rfl
  · cases h
    rfl

theorem render_eq (v : Version) : v.render = Text.ofNat v.major ++ "." ++ Text.ofNat v.minor ++
    "." ++ Text.ofNat v.patch ++ marked '-' v.prerelease ++ marked '+' v.build := rfl

/-- A version on one line of ASCII characters is written as it is read. -/
theorem render_of_read? (plain : Plain s) {v : Version} (h : read? s = some v) : v.render = s := by
  simp only [read?, Option.bind_eq_bind, Option.bind_eq_some_iff, Prod.exists] at h
  obtain ⟨major, s₁, hmajor, s₂, hpoint, minor, s₃, hminor, s₄, hpoint', patch, s₅, hpatch,
    prerelease, s₆, hprerelease, build, s₇, hbuild, h⟩ := h
  -- the parts from the left, each with what follows it
  obtain rfl := eq_of_takeNumber? plain hmajor
  obtain rfl := Text.after?_eq_some_iff.mp hpoint
  have plain₂ := plain.of_append_right.of_append_right
  obtain rfl := eq_of_takeNumber? plain₂ hminor
  obtain rfl := Text.after?_eq_some_iff.mp hpoint'
  have plain₄ := plain₂.of_append_right.of_append_right
  obtain rfl := eq_of_takeNumber? plain₄ hpatch
  obtain rfl := eq_of_takePart? hprerelease
  obtain rfl := eq_of_takePart? hbuild
  have plain₇ := plain₄.of_append_right.of_append_right.of_append_right
  split at h
  · rename_i valid
    cases h
    have ends : s₇ = [] := by
      rcases valid.1 with ends | line
      · exact ends
      · rw [line] at plain₇
        exact absurd rfl (plain₇ '\n' (.head _)).2
    simp [render_eq, ends, List.append_assoc]
  · cases h

/-! ## Normal forms -/

section Plain

variable {s t : Text}

theorem plain_nil : Plain [] := fun _ member => absurd member List.not_mem_nil

theorem plain_append (hs : Plain s) (ht : Plain t) : Plain (s ++ t) := by
  intro c member
  rcases List.mem_append.mp member with member | member
  · exact hs c member
  · exact ht c member

theorem plain_intercalate {parts : List Text} (h : ∀ part ∈ parts, Plain part) :
    Plain (List.intercalate ['.'] parts) := by
  intro c member
  rcases mem_intercalate member with point | ⟨part, inside, member⟩
  · rw [List.mem_singleton.mp point]
    decide
  · exact h part inside c member

theorem plain_of_alphanumeric (h : Alphanumeric s) : Plain s := by
  intro c member
  have letter := h c member
  simp only [isAsciiAlphanumeric, Bool.or_eq_true, Bool.and_eq_true, decide_eq_true_eq] at letter
  refine ⟨by omega, ?_⟩
  rintro rfl
  exact absurd (h '\n' member) (by decide)

theorem plain_ofNat (n : Nat) : Plain (Text.ofNat n) :=
  plain_of_alphanumeric (alphanumeric_ofNat n)

end Plain

namespace Published

theorem alphanumeric_of_readLabel? {s : Text} {label : List Text} (h : readLabel? s = some label) :
    ∀ w ∈ label, Alphanumeric w := by
  intro w member
  unfold readLabel? at h
  split at h
  · cases h
    cases member
  · extract_lets segments at h
    split at h
    · rename_i letters
      have same : segments = label := Option.some.inj h
      rw [← same] at member
      have letters := List.all_eq_true.mp letters w member
      rw [Bool.and_eq_true, List.all_eq_true] at letters
      exact letters.2
    · cases h
  · cases h

theorem label_ofParts {parts : Parts} {p : Published} (h : ofParts parts = .ok p) :
    parts.label.mapM segment = .ok p.label := by
  simp only [ofParts, bind_eq_ok] at h
  obtain ⟨_, _, _, _, h⟩ := h
  split at h
  · simp only [bind_eq_ok] at h
    obtain ⟨_, _, _, _, _, _, label, segments, same⟩ := h
    cases same
    exact segments
  · simp only [bind_eq_ok] at h
    obtain ⟨_, _, _, _, _, _, _, _, label, segments, same⟩ := h
    cases same
    exact segments

/-- The words of the local label of a version that is read are letters and digits. -/
theorem alphanumeric_of_read {s : Text} {p : Published} (h : read s = .ok p) {w : Text}
    (member : .word w ∈ p.label) : Alphanumeric w := by
  unfold read at h
  split at h
  · cases h
  · rename_i parts read
    have letters : ∀ w ∈ parts.label, Alphanumeric w := by
      simp only [readParts?, Option.bind_eq_bind, Option.bind_eq_some_iff] at read
      obtain ⟨_, _, _, label, same⟩ := read
      cases same
      exact alphanumeric_of_readLabel? label
    obtain ⟨v, inside, word⟩ := (mem_of_mapM (label_ofParts h) _).mp member
    unfold segment at word
    split at word
    · obtain ⟨_, _, impossible⟩ := map_eq_ok.mp word
      cases impossible
    · cases word
      exact letters w inside

theorem plain_renderPart {letters : Text} (plain : Plain letters) (part : Option Nat) :
    Plain (renderPart letters part) := by
  cases part with
  | none => exact plain_nil
  | some n => exact plain_append plain (plain_ofNat n)

/-- The normal form of a published version is written with ASCII characters on one line. -/
theorem plain_render {s : Text} {p : Published} (h : read s = .ok p) : Plain p.render := by
  unfold render
  refine plain_append (plain_append (plain_append (plain_append (plain_append ?epoch ?numbers)
    ?stage) ?post) ?development) ?label
  case epoch =>
    split
    · exact plain_nil
    · exact plain_append (plain_ofNat _) (by unfold Plain; decide)
  case numbers =>
    refine plain_intercalate fun part member => ?_
    obtain ⟨n, _, rfl⟩ := List.mem_map.mp member
    exact plain_ofNat n
  case stage =>
    rcases p.stage with _ | ⟨stage, n⟩
    · exact plain_nil
    · refine plain_renderPart ?_ (some n)
      unfold Plain
      cases stage <;> decide
  case post => exact plain_renderPart (by unfold Plain; decide) _
  case development => exact plain_renderPart (by unfold Plain; decide) _
  case label =>
    split
    · exact plain_nil
    · refine @plain_append ['+'] _ (by unfold Plain; decide)
        (plain_intercalate fun part member => ?_)
      obtain ⟨segment, inside, rfl⟩ := List.mem_map.mp member
      cases segment with
      | number n => exact plain_ofNat n
      | word w => exact plain_of_alphanumeric (alphanumeric_of_read h inside)

end Published

end Version

end TokenForge

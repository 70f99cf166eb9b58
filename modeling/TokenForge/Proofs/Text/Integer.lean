import Mathlib.Data.Nat.Digits.Defs
import TokenForge.Proofs.Text.Numeral
import TokenForge.Proofs.Text.Stripped

/-!
# Written integers

The digits of a number are read as the number, with or without white space taken off
first, unless there are too many (`toInt?_ofNat`).  However a number is written that is
read, with digits of any script, with a sign, with underscores or with superfluous zeros,
its own digits are never too many (`length_ofNat_of_toInt?`).
-/

namespace TokenForge

/-- White space is neither letter nor digit. -/
theorem Alphanumeric.solid {s : Text} (h : Alphanumeric s) : ∀ c ∈ s, isBlank c = false := by
  intro c member
  have letter := h c member
  simp only [isAsciiAlphanumeric, Bool.or_eq_true, Bool.and_eq_true, decide_eq_true_eq] at letter
  simp only [isBlank, Bool.or_eq_false_iff, Bool.and_eq_false_iff, decide_eq_false_iff_not,
    beq_eq_false_iff_ne]
  omega

theorem Alphanumeric.stripped {s : Text} (h : Alphanumeric s) : Text.Stripped s :=
  Text.stripped_of_solid h.solid

namespace Text

/-! ## Digits of a number -/

theorem lt_ten_of_digitValue? {c : Char} {d : Nat} (h : digitValue? c = some d) : d < 10 := by
  unfold digitValue? at h
  dsimp only at h
  split at h
  · split at h
    · cases h
      omega
    · cases h
  · obtain ⟨first, found, rfl⟩ := Option.map_eq_some_iff.mp h
    have inside := List.find?_some found
    simp only [Bool.and_eq_true, decide_eq_true_eq] at inside
    omega

theorem lt_ten_of_digits? {s : Text} {ds : List Nat} (h : digits? s = some ds) :
    ∀ d ∈ ds, d < 10 := by
  fun_induction digits? s generalizing ds with
  | case1 => cases h
  | case2 => cases h
  | case3 c d value =>
    cases h
    exact List.forall_mem_singleton.mpr (lt_ten_of_digitValue? value)
  | case4 c d s value ih =>
    obtain ⟨rest, read, rfl⟩ := Option.map_eq_some_iff.mp h
    exact List.forall_mem_cons.mpr ⟨lt_ten_of_digitValue? value, ih read⟩
  | case5 c s d _ _ value ih =>
    obtain ⟨rest, read, rfl⟩ := Option.map_eq_some_iff.mp h
    exact List.forall_mem_cons.mpr ⟨lt_ten_of_digitValue? value, ih read⟩

theorem ofDigits_lt {ds : List Nat} (small : ∀ d ∈ ds, d < 10) :
    ofDigits ds < 10 ^ ds.length := by
  induction ds using List.reverseRecOn with
  | nil => exact Nat.one_pos
  | append_singleton ds d ih =>
    have front := ih fun e member => small e (List.mem_append_left _ member)
    have last := small d (by simp)
    have value : ofDigits (ds ++ [d]) = 10 * ofDigits ds + d := by simp [ofDigits]
    rw [value, List.length_append, List.length_singleton, Nat.pow_succ]
    omega

/-! ## The limit -/

/-- A number that is read has no more digits than a numeral may have. -/
theorem length_ofNat_of_toNat? {s : Text} {n : Nat} (h : toNat? s = some n) :
    (ofNat n).length ≤ numeralLimit := by
  obtain ⟨ds, read, value⟩ := Option.bind_eq_some_iff.mp h
  split at value
  · rename_i few
    cases value
    have bound : ofDigits ds < 10 ^ numeralLimit :=
      (ofDigits_lt (lt_ten_of_digits? read)).trans_le (Nat.pow_le_pow_right (by decide) few)
    exact Nat.toDigits_length 10 _ numeralLimit (by decide) bound
  · cases value

theorem length_ofNat_of_toInt? {s : Text} {n : Nat} (h : toInt? s = some (Int.ofNat n)) :
    (ofNat n).length ≤ numeralLimit := by
  unfold toInt? at h
  split at h
  · -- Of the numbers behind a minus sign only zero is not negative.
    obtain ⟨_, read, same⟩ := Option.map_eq_some_iff.mp h
    obtain ⟨m, _, positive⟩ := Option.bind_eq_some_iff.mp read
    cases positive
    have negated : -(m : Int) = n := same
    have zero : n = 0 := by omega
    rw [zero]
    decide
  · obtain ⟨m, read, same⟩ := Option.map_eq_some_iff.mp h
    cases same
    exact length_ofNat_of_toNat? read
  · obtain ⟨m, read, same⟩ := Option.map_eq_some_iff.mp h
    cases same
    exact length_ofNat_of_toNat? read

/-! ## The digits of a number are read -/

theorem stripWith_of_none {p : Char → Bool} {s : Text} (h : ∀ c ∈ s, p c = false) :
    stripWith p s = s := by
  have first : Stops p s := fun c here => h c (List.mem_of_mem_head? here)
  have last : Stops p s.reverse :=
    fun c here => h c (List.mem_reverse.mp (List.mem_of_mem_head? here))
  rw [stripWith, dropWhile_of_stops first, dropWhile_of_stops last, List.reverse_reverse]

theorem toInt?_ofNat (n : Nat) : toInt? (ofNat n) =
    if (ofNat n).length ≤ numeralLimit then some (Int.ofNat n) else none := by
  have blank : stripWith isNumeralBlank (ofNat n) = ofNat n := by
    refine stripWith_of_none fun c member => ?_
    rw [isNumeralBlank, (alphanumeric_ofNat n).solid c member, Bool.false_and]
  have unsigned : ∀ c ∈ ofNat n, c ≠ '-' ∧ c ≠ '+' := by
    intro c member
    constructor
    · rintro rfl
      exact (alphanumeric_ofNat n).not_mem (by decide) member
    · rintro rfl
      exact (alphanumeric_ofNat n).not_mem (by decide) member
  have read : toInt? (ofNat n) = (toNat? (ofNat n)).map Int.ofNat := by
    rw [toInt?, blank]
    split
    · rename_i rest written
      exact absurd rfl (unsigned '-' (written ▸ .head _)).1
    · rename_i rest written
      exact absurd rfl (unsigned '+' (written ▸ .head _)).2
    · rfl
  rw [read, toNat?_ofNat]
  split <;> rfl

end Text

end TokenForge

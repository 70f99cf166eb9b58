import Mathlib.Data.List.Induction
import TokenForge.Text.Numeral
import TokenForge.Text.Word

/-!
# Decimal numbers

The decimal digits of a number have no superfluous zeros, and digits without them are the digits
of their number (`ofNat_ofAsciiDigits`), so that a number is written in one way only.  They are
read as their number, unless there are too many (`toNat?_ofNat`).

The readers of numerals take digits of every script.  Of ASCII characters they take the ASCII
digits (`toNat?_eq`).
-/

namespace TokenForge

/-! ## Letters and digits -/

/-- A text of ASCII letters and digits. -/
def Alphanumeric (s : Text) : Prop := ∀ c ∈ s, isAsciiAlphanumeric c = true

theorem Alphanumeric.not_mem {s : Text} (h : Alphanumeric s) {c : Char}
    (other : isAsciiAlphanumeric c = false) : c ∉ s := by
  intro member
  rw [h c member] at other
  cases other

/-! ## Numerals -/

namespace Text

theorem ofAsciiDigits_ofNat (n : Nat) : ofAsciiDigits (ofNat n) = n := by
  have digits : Nat.ofDigitChars 10 (Nat.toDigits 10 n) 0 = n :=
    Nat.ofDigitChars_toDigits (by decide) (by decide)
  rw [Nat.ofDigitChars_eq_foldl] at digits
  rw [ofAsciiDigits, ofDigits, List.foldl_map]
  exact digits

theorem isAsciiDigit_iff {c : Char} : isAsciiDigit c = true ↔ 48 ≤ c.toNat ∧ c.toNat ≤ 57 := by
  rw [isAsciiDigit, Bool.and_eq_true, decide_eq_true_eq, decide_eq_true_eq, Char.le_def,
    Char.le_def, UInt32.le_iff_toNat_le, UInt32.le_iff_toNat_le]
  rfl

theorem isAsciiDigit_ofNat (n : Nat) : ∀ c ∈ ofNat n, isAsciiDigit c = true := by
  intro c member
  have digit := Nat.isDigit_of_mem_toDigits (by decide) (by decide) member
  simp only [Char.isDigit, Bool.and_eq_true, decide_eq_true_eq, ge_iff_le,
    UInt32.le_iff_toNat_le] at digit
  exact isAsciiDigit_iff.mpr digit

theorem ofNat_ne_nil (n : Nat) : ofNat n ≠ [] := Nat.toDigits_ne_nil

theorem digitChar_of_isAsciiDigit {c : Char} (h : isAsciiDigit c = true) :
    Nat.digitChar (c.toNat - 0x30) = c := by
  rw [isAsciiDigit_iff] at h
  apply Char.toNat_inj.mp
  rw [Nat.toNat_digitChar_of_lt_ten (by omega)]
  omega

theorem ofAsciiDigits_append (ds : Text) (c : Char) :
    ofAsciiDigits (ds ++ [c]) = 10 * ofAsciiDigits ds + (c.toNat - 0x30) := by
  simp [ofAsciiDigits, ofDigits]

/-- Digits without superfluous zeros are how their number is written. -/
theorem ofNat_ofAsciiDigits {ds : Text} (digits : ∀ c ∈ ds, isAsciiDigit c = true)
    (some_digit : ds ≠ []) (leading : ds.head? = some '0' → ds.length = 1) :
    ofNat (ofAsciiDigits ds) = ds := by
  induction ds using List.reverseRecOn with
  | nil => exact absurd rfl some_digit
  | append_singleton ds c ih =>
    have last : isAsciiDigit c = true := digits c (by simp)
    have small : c.toNat - 0x30 < 10 := by
      rw [isAsciiDigit_iff] at last
      omega
    have single : ofNat (c.toNat - 0x30) = [c] := by
      rw [ofNat, Nat.toDigits_of_lt_base small, digitChar_of_isAsciiDigit last]
    rw [ofAsciiDigits_append]
    rcases ds with _ | ⟨d, ds⟩
    · rw [show ofAsciiDigits [] = 0 from rfl, Nat.mul_zero, Nat.zero_add, single]
      rfl
    · have nonzero : d ≠ '0' := by
        rintro rfl
        simpa using leading rfl
      have front : ofNat (ofAsciiDigits (d :: ds)) = d :: ds :=
        ih (fun e member => digits e (List.mem_append_left _ member)) (List.cons_ne_nil _ _)
          fun zero => absurd (Option.some.inj zero) nonzero
      have positive : 0 < ofAsciiDigits (d :: ds) := by
        refine Nat.pos_of_ne_zero fun zero => nonzero ?_
        rw [zero] at front
        exact (List.cons.inj front).1.symm
      calc ofNat (10 * ofAsciiDigits (d :: ds) + (c.toNat - 0x30))
          = ofNat (ofAsciiDigits (d :: ds)) ++ ofNat (c.toNat - 0x30) :=
            (Nat.toDigits_append_toDigits (by decide) positive small).symm
        _ = d :: ds ++ [c] := by rw [front, single]

/-- The first digit of a number is not zero, unless the number is. -/
theorem ofNat_eq_cons {n : Nat} (h : n ≠ 0) : ∃ d ds, ofNat n = d :: ds ∧ d ≠ '0' := by
  induction n using Nat.strongRecOn with
  | ind n ih =>
    by_cases small : n < 10
    · have digit : ∀ d : Fin 10, d.val ≠ 0 → Nat.digitChar d ≠ '0' := by decide
      exact ⟨_, [], Nat.toDigits_of_lt_base small, digit ⟨n, small⟩ h⟩
    · obtain ⟨d, ds, same, other⟩ := ih (n / 10) (by omega) (by omega)
      refine ⟨d, ds ++ [Nat.digitChar (n % 10)], ?_, other⟩
      rw [ofNat, Nat.toDigits_of_base_le (by decide) (by omega), ← ofNat, same]
      rfl

/-- An ASCII character that is a digit of some script is an ASCII digit. -/
theorem digitValue?_of_lt {c : Char} (ascii : c.toNat < 128) :
    digitValue? c = if isAsciiDigit c then some (c.toNat - 0x30) else none := by
  simp only [digitValue?, if_pos ascii, isAsciiDigit_iff]

theorem digits?_eq {ds : Text} (digits : ∀ c ∈ ds, isAsciiDigit c = true) (some_digit : ds ≠ []) :
    digits? ds = some (ds.map fun c => c.toNat - 0x30) := by
  induction ds with
  | nil => exact absurd rfl some_digit
  | cons c ds ih =>
    have first := digits c (.head _)
    have value : digitValue? c = some (c.toNat - 0x30) := by
      have := isAsciiDigit_iff.mp first
      rw [digitValue?_of_lt (by omega), if_pos first]
    rcases ds with _ | ⟨d, ds⟩
    · simp [digits?, value]
    · have other : d ≠ '_' := by
        rintro rfl
        exact absurd (digits '_' (.tail _ (.head _))) (by decide)
      have rest := ih (fun e member => digits e (.tail _ member)) (List.cons_ne_nil _ _)
      simp [digits?, value, rest, other]

theorem toNat?_eq {ds : Text} {n : Nat} (digits : ∀ c ∈ ds, isAsciiDigit c = true)
    (h : toNat? ds = some n) : ds ≠ [] ∧ n = ofAsciiDigits ds := by
  have some_digit : ds ≠ [] := by
    rintro rfl
    cases h
  refine ⟨some_digit, ?_⟩
  rw [toNat?, digits?_eq digits some_digit, Option.bind_some] at h
  split at h
  · exact (Option.some.inj h).symm
  · cases h

/-- The digits of a number are read, unless there are too many. -/
theorem toNat?_ofNat (n : Nat) :
    toNat? (ofNat n) = if (ofNat n).length ≤ numeralLimit then some n else none := by
  have value := ofAsciiDigits_ofNat n
  rw [ofAsciiDigits] at value
  rw [toNat?, digits?_eq (isAsciiDigit_ofNat n) (ofNat_ne_nil n), Option.bind_some,
    List.length_map, value]

end Text

theorem alphanumeric_ofNat (n : Nat) : Alphanumeric (Text.ofNat n) := by
  intro c member
  simp [isAsciiAlphanumeric, Text.isAsciiDigit_iff.mp (Text.isAsciiDigit_ofNat n c member)]

end TokenForge

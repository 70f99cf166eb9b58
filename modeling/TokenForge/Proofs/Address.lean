import Mathlib.Data.List.Basic
import TokenForge.Address

/-!
# Texts that spell an address

A text spells an address if, behind an optional `0x` or `0X`, it has the digits of the
address in any case (`Address.Spells`).  An address is read from the texts that spell it in
one case or in its checksummed form, and from no other (`Address.parse?_eq_some_iff`).  So
the checksummed form is read back, and no two addresses have the same
(`Address.checksummed_injective`).
-/

namespace TokenForge

/-! ## The length of a digest -/

theorem length_hexText (bs : Bytes) : (hexText bs).length = 2 * bs.length := by
  induction bs with
  | nil => rfl
  | cons b bs ih =>
    rw [hexText, List.flatMap_cons, List.length_append, ← hexText, ih, List.length_cons]
    simp only [hexDigits, List.length_append, List.length_nil, List.length_singleton]
    omega

namespace Keccak

theorem length_iota (constant : UInt64) (a : State) : (iota constant a).length = a.length := by
  cases a <;> rfl

theorem length_chi (a : State) : (chi a).length = 25 := by simp [chi, places]

/-- The last round of a permutation leaves 25 words. -/
theorem length_permute (a : State) : (permute a).length = 25 := by
  obtain ⟨first, last, rounds⟩ : ∃ first last, roundConstants = first ++ [last] :=
    ⟨roundConstants.dropLast, 0x8000000080008008, rfl⟩
  rw [permute, rounds, List.foldl_append, List.foldl_cons, List.foldl_nil, length_iota, length_chi]

theorem length_foldl_absorb (blocks : List Bytes) :
    (blocks.foldl absorb State.zero).length = 25 :=
  List.foldlRecOn (motive := fun a => a.length = 25) blocks absorb rfl
    fun _ _ _ _ => length_permute _

theorem length_digest (message : Bytes) : (digest message).length = 32 := by
  have words := length_foldl_absorb (chunks rate (pad message).length (pad message))
  simp [digest, List.length_flatMap, bytesOf, words]

end Keccak

theorem Text.length_digest (s : Text) : s.digest.length = 64 := by
  rw [Text.digest, length_hexText, Keccak.length_digest]

namespace Address

/-! ## Digits in either case -/

/-- Only the sixteen digits, in either case, have values. -/
theorem hexValue?_eq_some_iff {c : Char} {n : Nat} :
    hexValue? c = some n ↔ n < 16 ∧ lowerChar c = hexDigit n := by
  have ascii : ∀ m : Fin 128, ∀ n : Fin 16, hexValue? (Char.ofNat m) = some n.val ↔
      lowerChar (Char.ofNat m) = hexDigit n := by decide +kernel
  have digit : ∀ n : Fin 16, (hexDigit n).toNat < 128 := by decide
  by_cases low : c.toNat < 128
  · have known := ascii ⟨c.toNat, low⟩
    rw [Char.ofNat_toNat] at known
    constructor
    · intro read
      have small : n < 16 := by
        dsimp only [hexValue?] at read
        split_ifs at read <;> simp only [Option.some.injEq] at read <;> omega
      exact ⟨small, (known ⟨n, small⟩).mp read⟩
    · rintro ⟨small, same⟩
      exact (known ⟨n, small⟩).mpr same
  · have none : hexValue? c = none := by
      unfold hexValue?
      rw [if_neg (by omega), if_neg (by omega), if_neg (by omega)]
    have stays : lowerChar c = c := if_neg (by omega)
    rw [none, stays]
    constructor
    · intro read
      cases read
    · rintro ⟨small, rfl⟩
      exact absurd (digit ⟨n, small⟩) low

theorem hexDigits_two (n : Nat) : hexDigits 2 n = [hexDigit (n / 16), hexDigit n] := rfl

theorem hexDigit_mod (n : Nat) : hexDigit (n % 16) = hexDigit n := by simp [hexDigit]

/-- Bytes are read from their digits in either case. -/
theorem hexBytes?_eq_some_iff {ds : Text} {bs : Bytes} :
    hexBytes? ds = some bs ↔ ds.map lowerChar = hexText bs := by
  induction ds using hexBytes?.induct generalizing bs with
  | case1 =>
    cases bs with
    | nil => simp [hexBytes?, hexText]
    | cons b bs => simp [hexBytes?, hexText, hexDigits_two]
  | case2 c =>
    cases bs with
    | nil => simp [hexBytes?, hexText]
    | cons b bs => simp [hexBytes?, hexText, hexDigits_two]
  | case3 a b s ih =>
    simp only [hexBytes?, Option.bind_eq_bind, Option.bind_eq_some_iff, Option.pure_def,
      Option.some.injEq, hexValue?_eq_some_iff]
    constructor
    · rintro ⟨high, ⟨highSmall, first⟩, low, ⟨lowSmall, second⟩, rest, read, rfl⟩
      have value : (UInt8.ofNat (16 * high + low)).toNat = 16 * high + low :=
        UInt8.toNat_ofNat_of_lt' (by simp only [UInt8.size]; omega)
      have upper : (16 * high + low) / 16 = high := by omega
      have lower : hexDigit (16 * high + low) = hexDigit low := by
        rw [← hexDigit_mod, ← hexDigit_mod low]
        congr 1
        omega
      rw [List.map_cons, List.map_cons, ih.mp read, first, second, hexText, hexText,
        List.flatMap_cons, hexDigits_two, value, upper, lower]
      rfl
    · intro same
      cases bs with
      | nil => cases same
      | cons byte bs =>
        have bound : byte.toNat < 256 := byte.toNat_lt_size
        rw [hexText, List.flatMap_cons, hexDigits_two] at same
        obtain ⟨first, same⟩ := List.cons.inj same
        obtain ⟨second, same⟩ := List.cons.inj same
        refine ⟨byte.toNat / 16, ⟨by omega, first⟩, byte.toNat % 16, ⟨by omega, ?_⟩, bs,
          ih.mpr same, ?_⟩
        · rw [hexDigit_mod]
          exact second
        · rw [Nat.div_add_mod, UInt8.ofNat_toNat]

/-! ## Spelling -/

/-- Whether a text has the digits of an address, in any case, behind an optional `0x` or `0X`. -/
def Spells (s : Text) (a : Address) : Prop :=
  ∃ mark ds : Text, s = mark ++ ds ∧ mark ∈ ([[], "0x", "0X"] : List Text) ∧
    ds.map lowerChar = a.digits

theorem mem_digits {a : Address} {c : Char} (h : c ∈ a.digits) : ∃ n < 16, c = hexDigit n := by
  obtain ⟨b, _, digit⟩ := List.mem_flatMap.mp h
  rw [hexDigits_two, List.mem_cons, List.mem_singleton] at digit
  have bound : b.toNat < 256 := b.toNat_lt_size
  rcases digit with rfl | rfl
  · exact ⟨b.toNat / 16, by omega, rfl⟩
  · exact ⟨b.toNat % 16, by omega, (hexDigit_mod _).symm⟩

theorem marker_not_mem_digits (a : Address) : 'x' ∉ a.digits := by
  intro member
  obtain ⟨n, small, same⟩ := mem_digits member
  have apart : ∀ m : Fin 16, 'x' ≠ hexDigit m := by decide
  exact apart ⟨n, small⟩ same

theorem digitsOf_of_digits {ds : Text} {a : Address} (h : ds.map lowerChar = a.digits) :
    digitsOf ds = ds := by
  have unmarked : ∀ c ∈ ds, lowerChar c ≠ 'x' := by
    intro c member same
    refine marker_not_mem_digits a ?_
    rw [← h, ← same]
    exact List.mem_map_of_mem member
  unfold digitsOf
  split
  · exact absurd rfl (unmarked 'x' (by simp))
  · exact absurd rfl (unmarked 'X' (by simp))
  · rfl

theorem spells_iff {s : Text} {a : Address} :
    Spells s a ↔ (digitsOf s).map lowerChar = a.digits := by
  constructor
  · rintro ⟨mark, ds, rfl, marked, same⟩
    simp only [List.mem_cons, List.not_mem_nil, or_false] at marked
    rcases marked with rfl | rfl | rfl
    · rw [List.nil_append, digitsOf_of_digits same]
      exact same
    · exact same
    · exact same
  · intro same
    unfold digitsOf at same
    split at same
    · exact ⟨"0x", _, rfl, by simp, same⟩
    · exact ⟨"0X", _, rfl, by simp, same⟩
    · exact ⟨[], s, rfl, by simp, same⟩

/-- An address is read from the texts that spell it and, if they have letters of both cases, are
its checksummed form. -/
theorem parse?_eq_some_iff {s : Text} {a : Address} :
    parse? s = some a ↔
      Spells s a ∧ (hasBothCases (digitsOf s) = true → s = a.checksummed) := by
  rw [spells_iff]
  unfold digits
  rw [← hexBytes?_eq_some_iff]
  simp only [parse?, Option.bind_eq_bind, Option.bind_eq_some_iff]
  constructor
  · rintro ⟨bytes, read, result⟩
    split at result
    · split at result
      · cases result
      · rename_i cased
        cases result
        exact ⟨read, fun both => by_contra fun differ => cased ⟨both, differ⟩⟩
    · cases result
  · rintro ⟨read, cased⟩
    refine ⟨a.bytes, read, ?_⟩
    rw [dif_pos a.length_bytes, if_neg]
    rintro ⟨both, differ⟩
    exact differ (cased both)

/-! ## The checksummed form -/

theorem map_zipWith_of_left {α β γ : Type} {f : α → β → γ} {g : γ → α} {as : List α} {bs : List β}
    (long : as.length ≤ bs.length) (h : ∀ a ∈ as, ∀ b, g (f a b) = a) :
    (List.zipWith f as bs).map g = as := by
  induction as generalizing bs with
  | nil => rfl
  | cons a as ih =>
    cases bs with
    | nil => simp at long
    | cons b bs =>
      rw [List.zipWith_cons_cons, List.map_cons, h a (.head _),
        ih (Nat.le_of_succ_le_succ long) fun a member => h a (.tail _ member)]

theorem length_digits (a : Address) : a.digits.length = 40 := by
  rw [digits, length_hexText, a.length_bytes]

/-- The checksummed form differs from the digits in the case of letters only. -/
theorem map_lowerChar_checksummedDigits (a : Address) :
    a.checksummedDigits.map lowerChar = a.digits := by
  have either : ∀ n : Fin 16, lowerChar (upperChar (hexDigit n)) = hexDigit n ∧
      lowerChar (hexDigit n) = hexDigit n := by decide
  refine map_zipWith_of_left ?_ ?_
  · rw [length_digits, Text.length_digest]
    decide
  · intro c member mark
    obtain ⟨n, small, rfl⟩ := mem_digits member
    split
    · exact (either ⟨n, small⟩).1
    · exact (either ⟨n, small⟩).2

theorem spells_checksummed (a : Address) : Spells a.checksummed a :=
  ⟨"0x", a.checksummedDigits, rfl, by simp, a.map_lowerChar_checksummedDigits⟩

/-- The checksummed form is read back. -/
theorem parse?_checksummed (a : Address) : parse? a.checksummed = some a :=
  parse?_eq_some_iff.mpr ⟨a.spells_checksummed, fun _ => rfl⟩

theorem checksummed_injective : Function.Injective checksummed := by
  intro a b same
  have read := b.parse?_checksummed
  rw [← same, a.parse?_checksummed] at read
  exact Option.some.inj read

end Address

end TokenForge

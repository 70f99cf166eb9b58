import TokenForge.Text.Basic

/-!
# Hexadecimal digits

Numbers and bytes in hexadecimal.  Digits are written in lower case and read in
either case.
-/

namespace TokenForge

/-- Bytes in order. -/
abbrev Bytes := List UInt8

/-! ## Writing -/

/-- The lower-case hexadecimal digit of a value below sixteen. -/
def hexDigit (n : Nat) : Char :=
  if n % 16 < 10 then Char.ofNat (0x30 + n % 16) else Char.ofNat (0x61 + n % 16 - 10)

/-- The lowest `width` hexadecimal digits of a number. -/
def hexDigits : Nat → Nat → Text
  | 0, _ => []
  | width + 1, n => hexDigits width (n / 16) ++ [hexDigit n]

/-- Bytes in hexadecimal, two digits each. -/
def hexText (bs : Bytes) : Text := bs.flatMap fun b => hexDigits 2 b.toNat

/-! ## Reading -/

/-- The value of a hexadecimal digit. -/
def hexValue? (c : Char) : Option Nat :=
  let n := c.toNat
  if 0x30 ≤ n ∧ n ≤ 0x39 then some (n - 0x30)
  else if 0x41 ≤ n ∧ n ≤ 0x46 then some (n - 0x41 + 10)
  else if 0x61 ≤ n ∧ n ≤ 0x66 then some (n - 0x61 + 10)
  else none

theorem hexValue?_hexDigit {n : Nat} (h : n < 16) : hexValue? (hexDigit n) = some n := by
  have : ∀ m : Fin 16, hexValue? (hexDigit m) = some m.val := by decide
  exact this ⟨n, h⟩

/-- The number of hexadecimal digits, the highest first. -/
def hexNumber? (s : Text) : Option Nat :=
  s.foldl (fun n? c => n?.bind fun n => (hexValue? c).map (16 * n + ·)) (some 0)

/-- The bytes of hexadecimal digits, two for each. -/
def hexBytes? : Text → Option Bytes
  | [] => some []
  | [_] => none
  | a :: b :: s => do
    let high ← hexValue? a
    let low ← hexValue? b
    return UInt8.ofNat (16 * high + low) :: (← hexBytes? s)

theorem hexBytes?_hexText (bs : Bytes) : hexBytes? (hexText bs) = some bs := by
  have byte (b : UInt8) (s : Text) :
      hexBytes? (hexDigits 2 b.toNat ++ s) = (hexBytes? s).map (b :: ·) := by
    have hb : b.toNat < 256 := b.toNat_lt_size
    have high : hexValue? (hexDigit (b.toNat / 16)) = some (b.toNat / 16) :=
      hexValue?_hexDigit (by omega)
    have low : hexValue? (hexDigit b.toNat) = some (b.toNat % 16) := by
      have : hexDigit b.toNat = hexDigit (b.toNat % 16) := by simp [hexDigit]
      rw [this]
      exact hexValue?_hexDigit (by omega)
    have whole : UInt8.ofNat (16 * (b.toNat / 16) + b.toNat % 16) = b := by
      rw [Nat.div_add_mod]
      exact UInt8.ofNat_toNat
    cases hs : hexBytes? s <;>
      simp only [hexDigits, List.nil_append, List.cons_append, hexBytes?, high, low, hs, whole,
        Option.bind_eq_bind, Option.bind_some, Option.bind_none, Option.pure_def, Option.map_some,
        Option.map_none]
  induction bs with
  | nil => rfl
  | cons b bs ih =>
    rw [hexText, List.flatMap_cons, byte b]
    change (hexBytes? (hexText bs)).map (b :: ·) = some (b :: bs)
    rw [ih]
    rfl

end TokenForge

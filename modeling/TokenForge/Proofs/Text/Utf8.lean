import TokenForge.Text.Utf8

/-!
# Texts as bytes and back

Every text is read back from its bytes (`decode_encode`).  The first byte of a character
above ASCII leaves a pending character, with the range of its next byte, and each byte
behind it in that range adds six bits, the last of which completes it.
-/

namespace TokenForge

namespace Utf8

variable {n m position : Nat} {bs : Bytes} {p : Pending}

@[simp]
theorem toNat_byte (h : n < 0x100) : (byte n).toNat = n := by
  rw [byte, UInt8.toNat_ofNat']
  exact Nat.mod_eq_of_lt h

/-! ## First bytes -/

theorem pending?_two (low : 2 ≤ n) (high : n < 0x20) :
    pending? (byte (0xC0 + n)) = some ⟨byte (0xC0 + n), 1, 1, n, 0x80, 0xBF⟩ := by
  rw [pending?, toNat_byte (by omega), if_pos (by omega), Nat.add_sub_cancel_left]

theorem pending?_three (high : n < 0x10) :
    pending? (byte (0xE0 + n)) = some ⟨byte (0xE0 + n), 1, 2, n, if n = 0 then 0xA0 else 0x80,
      if n = 0xD then 0x9F else 0xBF⟩ := by
  rw [pending?, toNat_byte (by omega), if_neg (by omega)]
  by_cases zero : n = 0
  · subst zero
    rfl
  · by_cases surrogate : n = 0xD
    · subst surrogate
      rfl
    · rw [if_neg (by omega), if_neg (by omega), if_pos (by omega), if_neg zero, if_neg surrogate,
        Nat.add_sub_cancel_left]

theorem pending?_four (high : n < 5) :
    pending? (byte (0xF0 + n)) = some ⟨byte (0xF0 + n), 1, 3, n, if n = 0 then 0x90 else 0x80,
      if n = 4 then 0x8F else 0xBF⟩ := by
  rw [pending?, toNat_byte (by omega), if_neg (by omega), if_neg (by omega), if_neg (by omega),
    if_neg (by omega)]
  by_cases zero : n = 0
  · subst zero
    rfl
  · by_cases last : n = 4
    · subst last
      rfl
    · rw [if_neg (by omega), if_pos (by omega), if_neg zero, if_neg last, Nat.add_sub_cancel_left]

theorem decodeFrom_none_cons (position : Nat) (b : UInt8) (bs : Bytes) :
    decodeFrom none position (b :: bs) =
      if b.toNat < 0x80 then (decodeFrom none (position + 1) bs).map (Char.ofNat b.toNat :: ·)
      else
        match pending? b with
        | none => .error ⟨position, b, 1, .invalidStart⟩
        | some p => decodeFrom (some p) (position + 1) bs := rfl

theorem decodeFrom_first (above : 0x80 ≤ n) (below : n < 0x100) (h : pending? (byte n) = some p) :
    decodeFrom none position (byte n :: bs) = decodeFrom (some p) (position + 1) bs := by
  rw [decodeFrom_none_cons, toNat_byte below, if_neg (by omega), h]

/-! ## Further bytes -/

theorem decodeFrom_some_cons (p : Pending) (position : Nat) (b : UInt8) (bs : Bytes) :
    decodeFrom (some p) position (b :: bs) =
      if b.toNat < p.low ∨ p.high < b.toNat then
        .error ⟨position - p.count, p.first, p.count, .invalidContinuation⟩
      else
        let value := p.value * 0x40 + (b.toNat - 0x80)
        if p.owed = 1 then (decodeFrom none (position + 1) bs).map (Char.ofNat value :: ·)
        else
          decodeFrom (some ⟨p.first, p.count + 1, p.owed - 1, value, 0x80, 0xBF⟩) (position + 1)
            bs := rfl

/-- A byte in the range of a pending character that more than one byte is owed to. -/
theorem decodeFrom_more (low : p.low ≤ 0x80 + n) (high : 0x80 + n ≤ p.high) (below : n < 0x40)
    (owed : p.owed ≠ 1) :
    decodeFrom (some p) position (byte (0x80 + n) :: bs) =
      decodeFrom (some ⟨p.first, p.count + 1, p.owed - 1, p.value * 0x40 + n, 0x80, 0xBF⟩)
        (position + 1) bs := by
  rw [decodeFrom_some_cons, toNat_byte (by omega), if_neg (by omega), if_neg owed,
    Nat.add_sub_cancel_left]

/-- The last byte of a pending character. -/
theorem decodeFrom_last (low : p.low ≤ 0x80 + n) (high : 0x80 + n ≤ p.high) (below : n < 0x40)
    (owed : p.owed = 1) :
    decodeFrom (some p) position (byte (0x80 + n) :: bs) =
      (decodeFrom none (position + 1) bs).map (Char.ofNat (p.value * 0x40 + n) :: ·) := by
  rw [decodeFrom_some_cons, toNat_byte (by omega), if_neg (by omega), if_pos owed,
    Nat.add_sub_cancel_left]

/-! ## Whole texts -/

/-- The bytes of a character are read as that character. -/
theorem decodeFrom_encodeChar (c : Char) (position : Nat) (bs : Bytes) :
    ∃ behind, decodeFrom none position (encodeChar c ++ bs) =
      (decodeFrom none behind bs).map (c :: ·) := by
  have valid : c.toNat < 0xD800 ∨ (0xDFFF < c.toNat ∧ c.toNat < 0x110000) := c.valid
  have same : Char.ofNat c.toNat = c := Char.ofNat_toNat c
  simp only [encodeChar]
  generalize c.toNat = n at valid same ⊢
  by_cases one : n < 0x80
  · refine ⟨position + 1, ?_⟩
    rw [if_pos one, List.singleton_append, decodeFrom_none_cons, toNat_byte (by omega), if_pos one,
      same]
  · by_cases two : n < 0x800
    · refine ⟨position + 1 + 1, ?_⟩
      have whole : n / 0x40 * 0x40 + n % 0x40 = n := by omega
      rw [if_neg one, if_pos two, List.cons_append, List.singleton_append,
        decodeFrom_first (by omega) (by omega) (pending?_two (by omega) (by omega)),
        decodeFrom_last (by simp) (by dsimp only; omega) (by omega) rfl, whole, same]
    · by_cases three : n < 0x10000
      · refine ⟨position + 1 + 1 + 1, ?_⟩
        have whole : (n / 0x1000 * 0x40 + n / 0x40 % 0x40) * 0x40 + n % 0x40 = n := by omega
        rw [if_neg one, if_neg two, if_pos three, List.cons_append, List.cons_append,
          List.singleton_append,
          decodeFrom_first (by omega) (by omega) (pending?_three (by omega)),
          decodeFrom_more (by dsimp only; split <;> omega) (by dsimp only; split <;> omega)
            (by omega) (by simp),
          decodeFrom_last (by simp) (by dsimp only; omega) (by omega) rfl, whole, same]
      · refine ⟨position + 1 + 1 + 1 + 1, ?_⟩
        have whole : ((n / 0x40000 * 0x40 + n / 0x1000 % 0x40) * 0x40 + n / 0x40 % 0x40) * 0x40 +
            n % 0x40 = n := by omega
        rw [if_neg one, if_neg two, if_neg three, List.cons_append, List.cons_append,
          List.cons_append, List.singleton_append,
          decodeFrom_first (by omega) (by omega) (pending?_four (by omega)),
          decodeFrom_more (by dsimp only; split <;> omega) (by dsimp only; split <;> omega)
            (by omega) (by simp),
          decodeFrom_more (by simp) (by dsimp only; omega) (by omega) (by simp),
          decodeFrom_last (by simp) (by dsimp only; omega) (by omega) rfl, whole, same]

/-- A text is read back from its bytes. -/
theorem decode_encode (s : Text) : decode (encode s) = .ok s := by
  rw [decode]
  generalize 0 = position
  induction s generalizing position with
  | nil => rfl
  | cons c s ih =>
    obtain ⟨behind, read⟩ := decodeFrom_encodeChar c position (encode s)
    rw [encode, List.flatMap_cons]
    exact read.trans (by rw [ih behind]; rfl)

end Utf8

end TokenForge

import TokenForge.Proofs.Text.Integer
import TokenForge.Proofs.Token.Features
import TokenForge.Proofs.Token.WellFormed

/-!
# Reading the values of fields

What a check answers can be read again.  Stripped texts, checksummed addresses and the names of
access models are read as they are.  A number and the text of its digits are read as the
number, unless it has more digits than a numeral may have (`readAmount_of_writes`), and a
number that is read, from whatever value, never has (`length_of_readAmount`).
-/

namespace TokenForge

/-! ## Written numbers -/

/-- A value is a number or the text of its digits. -/
def Json.Writes (v : Json) (n : Nat) : Prop := v = .int n ∨ v = .text (Text.ofNat n)

namespace Json.Writes

variable {v : Json} {n : Nat}

theorem int (n : Nat) : (Json.int n).Writes n := .inl rfl

theorem display_eq (h : v.Writes n) : v.display = Text.ofNat n := by
  rcases h with rfl | rfl <;> rfl

/-- Zero is the only number that counts as empty, and stands for itself then. -/
theorem orElse_eq (h : v.Writes n) : v.orElse (.int 0) = v := by
  rcases h with rfl | rfl
  · cases n <;> rfl
  · have given : (Text.ofNat n).isEmpty = false :=
      List.isEmpty_eq_false_iff.mpr (Text.ofNat_ne_nil n)
    rw [Json.orElse, Json.isEmpty, given, if_neg Bool.false_ne_true]

end Json.Writes

namespace Token

open Text (Stripped)

variable {v : Json} {n : Nat} {label : Text}

/-! ## Amounts -/

/-- An amount is read from the stripped text of a value that is no truth value. -/
theorem readAmount_eq_ok_iff : readAmount v label = .ok n ↔
    (∀ b, v ≠ .bool b) ∧ Text.toInt? (Text.strip v.display) = some (Int.ofNat n) := by
  unfold readAmount
  split
  · simp
  · rename_i other
    split
    · rename_i m read
      constructor
      · rintro ⟨⟩
        exact ⟨other, read⟩
      · rintro ⟨_, same⟩
        rw [read] at same
        cases same
        rfl
    · rename_i unread
      exact ⟨nofun, fun h => absurd h.2 (unread n)⟩

theorem length_of_readAmount (h : readAmount v label = .ok n) :
    (Text.ofNat n).length ≤ numeralLimit :=
  Text.length_ofNat_of_toInt? (readAmount_eq_ok_iff.mp h).2

/-- A written number is read as itself and as no other. -/
theorem readAmount_of_writes {m : Nat} (h : v.Writes n) :
    readAmount v label = .ok m ↔ m = n ∧ (Text.ofNat n).length ≤ numeralLimit := by
  have noFlag : ∀ b, v ≠ .bool b := by
    rcases h with rfl | rfl <;> exact nofun
  rw [readAmount_eq_ok_iff, h.display_eq, (alphanumeric_ofNat n).stripped.strip_eq,
    Text.toInt?_ofNat]
  split
  · rename_i short
    simp [noFlag, short, eq_comm]
  · rename_i long
    simp [long]

/-! ## Texts -/

theorem readText_text {s : Text} (h : Stripped s) : readText (.text s) = s := by
  unfold readText
  split
  · rename_i empty
    exact (List.isEmpty_iff.mp empty).symm
  · exact h.strip_eq

theorem readReceiver_checksummed (receiver : Option Address) :
    readReceiver (.text (receiver.elim [] Address.checksummed)) = .ok receiver := by
  rcases receiver with _ | a
  · rfl
  · have written : readText (.text a.checksummed) = '0' :: 'x' :: a.checksummedDigits :=
      readText_text (alphanumeric_checksummed a).stripped
    have parsed : Address.parse? ('0' :: 'x' :: a.checksummedDigits) = some a :=
      a.parse?_checksummed
    rw [readReceiver, Option.elim_some, written]
    simp only [parsed]

theorem readAccess_name (a : Access) : readAccess (.text a.name) = .ok a := by
  simp [readAccess, Access.ofName?_name]

end Token

end TokenForge

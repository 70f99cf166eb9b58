import TokenForge.Proofs.Address
import TokenForge.Proofs.Text.Stripped
import TokenForge.Proofs.Token.Validate

/-!
# What is accepted is well formed

`Request.WellFormed` says what the values of the fields may be, field by field and without the
checks.  Whatever the members of an object are, they are refused with a fault or accepted as a
configuration whose values are well formed, and whose tax receiver is the address that the
value of its field spells (`Config.ofMembers_wellFormed`).
-/

namespace TokenForge

namespace Token

open Text (Stripped)

/-! ## Well-formed values -/

/-- A text that may be a name or a symbol. -/
structure Nameable (s : Text) : Prop where
  nonempty : s ≠ []
  stripped : Stripped s
  ascii : ∀ c ∈ s, c.toNat < 128
  allowed : ∀ c ∈ s, c ≠ '"' ∧ c ≠ '\\' ∧ c ≠ '\n' ∧ c ≠ '\r'

/-- A letter, letters and digits, and `Token`. -/
def IsContractName (s : Text) : Prop :=
  ∃ (c : Char) (rest : Text), s = c :: (rest ++ "Token") ∧ c.isAlpha = true ∧
    ∀ d ∈ rest, d.isAlphanum = true

/-- What the values of the fields may be. -/
structure Request.WellFormed (r : Request) : Prop where
  name : ∃ s, r.value .name = .text s ∧ Nameable s
  symbol : ∃ s, r.value .symbol = .text s ∧ Nameable s ∧ s.length ≤ 11 ∧
    IsContractName (contractName s)
  supplies : ∃ initial greatest : Nat, r.value .initialSupply = .int initial ∧
    r.value .maxSupply = .int greatest ∧ (greatest = 0 ∨ initial ≤ greatest)
  taxes : ∀ field ∈ [Field.buyTax, .sellTax], ∃ tax : Nat, r.value field = .int tax ∧ tax ≤ 25
  flags : ∀ field ∈ [Field.mintable, .burnable, .pausable], ∃ b, r.value field = .bool b
  access : ∃ s ∈ (["ownable", "roles", "none"] : List Text), r.value .accessControl = .text s

/-- The value that counts for a field of an object: the last one under either of its names, or
the default if that is null or there is none. -/
def givenValue (members : List (Text × Json)) (field : Field) : Json :=
  valueOf (normalizeKeys (Assoc.ofPairs members)) field

/-- A value is what a text spells: nothing for the empty text, and otherwise the checksummed form
of the address of the text. -/
def ReceiverOf (text : Text) (v : Json) : Prop :=
  text = [] ∧ v = .text [] ∨ ∃ a : Address, a.Spells text ∧ v = .text a.checksummed

/-! ## Readings -/

theorem stripped_readText (v : Json) : Stripped (readText v) := by
  unfold readText
  split
  · exact Text.stripped_nil
  · exact Text.stripped_strip _

/-- A tax is an amount that is not too high. -/
theorem readTax_eq_ok_iff {v : Json} {label : Text} {tax : Nat} :
    readTax v label = .ok tax ↔ readAmount v label = .ok tax ∧ tax ≤ maxTax := by
  simp only [readTax, bind_eq_ok]
  constructor
  · rintro ⟨amount, read, within⟩
    split at within
    · cases within
    · cases within
      exact ⟨read, by omega⟩
  · rintro ⟨read, within⟩
    exact ⟨tax, read, if_neg (by omega)⟩

theorem readReceiver_of {v : Json} {receiver : Option Address}
    (h : readReceiver v = .ok receiver) :
    ReceiverOf (readText v) (.text (receiver.elim [] Address.checksummed)) := by
  unfold readReceiver at h
  split at h
  · rename_i empty
    cases h
    exact .inl ⟨empty, rfl⟩
  · rename_i text _
    split at h
    · rename_i address read
      cases h
      exact .inr ⟨address, (Address.parse?_eq_some_iff.mp read).1, rfl⟩
    · cases h

/-! ## Names -/

theorem isAlphanum_of_isAsciiAlphanumeric {c : Char} (h : isAsciiAlphanumeric c = true) :
    c.isAlphanum = true := by
  simp only [isAsciiAlphanumeric, Bool.or_eq_true, Bool.and_eq_true, decide_eq_true_eq] at h
  unfold Char.isAlphanum Char.isAlpha Char.isUpper Char.isLower Char.isDigit
  simp only [Bool.or_eq_true, Bool.and_eq_true, decide_eq_true_eq, ge_iff_le,
    UInt32.le_iff_toNat_le]
  have code : (65 ≤ c.toNat ∧ c.toNat ≤ 90 ∨ 97 ≤ c.toNat ∧ c.toNat ≤ 122) ∨
      48 ≤ c.toNat ∧ c.toNat ≤ 57 := by omega
  exact code

theorem NamesChecked.isContractName {name symbol : Text} (h : NamesChecked name symbol) :
    IsContractName (contractName symbol) := by
  obtain ⟨c, rest, letters, leading⟩ := h.identifier
  have alphanumeric : ∀ d ∈ c :: rest, d.isAlphanum = true := by
    intro d member
    rw [← letters] at member
    exact isAlphanum_of_isAsciiAlphanumeric (List.mem_filter.mp member).2
  refine ⟨c, rest, ?_, ?_, fun d member => alphanumeric d (.tail _ member)⟩
  · rw [contractName, letters]
    rfl
  · have first := alphanumeric c (.head _)
    rw [Char.isAlphanum, Bool.or_eq_true] at first
    rcases first with letter | digit
    · exact letter
    · have same : c.isDigit = isAsciiDigit c := rfl
      rw [same, leading] at digit
      cases digit

theorem nameable {s : Text} {v : Json} (read : s = readText v) (nonempty : s ≠ [])
    (ascii : Text.isAscii s = true) (allowed : ∀ c ∈ s, isForbidden c = false) : Nameable s where
  nonempty
  stripped := read ▸ stripped_readText v
  ascii c member := by simpa using List.all_eq_true.mp ascii c member
  allowed c member := by simpa [isForbidden, and_assoc] using allowed c member

/-! ## Accepted configurations -/

theorem Checked.wellFormed {data : Assoc Json} {c : Config} (h : Checked data c) :
    c.request.WellFormed where
  name := ⟨c.name, rfl, nameable h.name h.named h.names.nameAscii h.names.nameAllowed⟩
  symbol := ⟨c.symbol, rfl,
    nameable h.symbol h.symbolic h.names.symbolAscii h.names.symbolAllowed, h.names.short,
    h.names.isContractName⟩
  supplies := ⟨c.initialSupply, c.maxSupply, rfl, rfl, h.supplies⟩
  taxes field member := by
    simp only [List.mem_cons, List.not_mem_nil, or_false] at member
    rcases member with rfl | rfl
    · exact ⟨c.buyTax, rfl, (readTax_eq_ok_iff.mp h.buyTax).2⟩
    · exact ⟨c.sellTax, rfl, (readTax_eq_ok_iff.mp h.sellTax).2⟩
  flags field member := by
    simp only [List.mem_cons, List.not_mem_nil, or_false] at member
    rcases member with rfl | rfl | rfl
    · exact ⟨c.mintable, rfl⟩
    · exact ⟨c.burnable, rfl⟩
    · exact ⟨c.pausable, rfl⟩
  access := by
    refine ⟨c.access.name, ?_, rfl⟩
    cases c.access <;> decide

/-- The members of an object are refused with a fault, or accepted as a configuration with
well-formed values, whose tax receiver is the one that the stripped text of its field spells. -/
theorem Config.ofMembers_wellFormed (members : List (Text × Json)) :
    (∃ fault, Config.ofMembers members = .error fault) ∨
      ∃ c, Config.ofMembers members = .ok c ∧ c.request.WellFormed ∧
        ReceiverOf (readText (givenValue members .taxReceiver)) (c.request.value .taxReceiver) := by
  cases result : Config.ofMembers members with
  | error fault => exact .inl ⟨fault, rfl⟩
  | ok c =>
    have checked : Checked _ c := check_eq_ok_iff.mp result
    exact .inr ⟨c, rfl, checked.wellFormed, readReceiver_of checked.taxReceiver⟩

end Token

end TokenForge

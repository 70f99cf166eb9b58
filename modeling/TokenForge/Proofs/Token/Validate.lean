import TokenForge.Proofs.Outcome
import TokenForge.Token.Validate

/-!
# What an accepted configuration satisfies

A check ends well if and only if every guard in it holds and every value is read as the
configuration has it.  `Checked` lists the guards and the readings once
(`check_eq_ok_iff`), so that a fact about accepted configurations is read off it and the
sequence of checks is not gone through again.
-/

namespace TokenForge

namespace Token

theorem require_eq_ok {condition : Bool} {fault : Fault} {u : PUnit} :
    require condition fault = .ok u ↔ condition = true := by
  cases condition <;> simp [require]

/-! ## Names -/

/-- What is asked of a name and a symbol. -/
structure NamesChecked (name symbol : Text) : Prop where
  short : symbol.length ≤ maxSymbolLength
  nameAllowed : ∀ c ∈ name, isForbidden c = false
  symbolAllowed : ∀ c ∈ symbol, isForbidden c = false
  nameAscii : Text.isAscii name = true
  symbolAscii : Text.isAscii symbol = true
  /-- The symbol has letters or digits, of which the first is a letter. -/
  identifier : ∃ c rest, symbol.filter isAsciiAlphanumeric = c :: rest ∧ isAsciiDigit c = false

theorem checkNames_eq_ok_iff {name symbol : Text} {u : PUnit} :
    checkNames name symbol = .ok u ↔ NamesChecked name symbol := by
  simp only [checkNames, bind_eq_ok, require_eq_ok, decide_eq_true_eq, Bool.and_eq_true,
    Bool.not_eq_true', List.any_eq_false, Bool.not_eq_true]
  constructor
  · rintro ⟨_, short, _, ⟨nameAllowed, symbolAllowed⟩, _, ⟨nameAscii, symbolAscii⟩, identifier⟩
    refine ⟨short, nameAllowed, symbolAllowed, nameAscii, symbolAscii, ?_⟩
    cases letters : symbol.filter isAsciiAlphanumeric with
    | nil =>
      rw [letters] at identifier
      cases identifier
    | cons c rest =>
      rw [letters] at identifier
      exact ⟨c, rest, rfl, by simpa [require_eq_ok] using identifier⟩
  · rintro ⟨short, nameAllowed, symbolAllowed, nameAscii, symbolAscii, c, rest, letters, leading⟩
    refine ⟨⟨⟩, short, ⟨⟩, ⟨nameAllowed, symbolAllowed⟩, ⟨⟩, ⟨nameAscii, symbolAscii⟩, ?_⟩
    rw [letters]
    simp [require_eq_ok, leading]

/-! ## Whole configurations -/

/-- What is asked of the members of an object, and how a configuration is read from them. -/
structure Checked (data : Assoc Json) (c : Config) : Prop where
  name : c.name = readText (valueOf data .name)
  symbol : c.symbol = readText (valueOf data .symbol)
  named : c.name ≠ []
  symbolic : c.symbol ≠ []
  supplied : supplyGiven data = true
  names : NamesChecked c.name c.symbol
  initialSupply :
    readAmount (valueOf data .initialSupply) "Initial supply" = .ok c.initialSupply
  maxSupply :
    readAmount ((valueOf data .maxSupply).orElse (.int 0)) "Max supply" = .ok c.maxSupply
  supplies : c.maxSupply = 0 ∨ c.initialSupply ≤ c.maxSupply
  buyTax : readTax ((valueOf data .buyTax).orElse (.int 0)) "Buy tax" = .ok c.buyTax
  sellTax : readTax ((valueOf data .sellTax).orElse (.int 0)) "Sell tax" = .ok c.sellTax
  taxReceiver : readReceiver (valueOf data .taxReceiver) = .ok c.taxReceiver
  access : readAccess (valueOf data .accessControl) = .ok c.access
  mintable : c.mintable = (valueOf data .mintable).isGiven
  burnable : c.burnable = (valueOf data .burnable).isGiven
  pausable : c.pausable = (valueOf data .pausable).isGiven

/-- A check ends well with the configurations that it asks for. -/
theorem check_eq_ok_iff {data : Assoc Json} {c : Config} :
    check data = .ok c ↔ Checked data c := by
  simp only [check, bind_eq_ok, require_eq_ok, checkNames_eq_ok_iff, Bool.and_eq_true,
    Bool.not_eq_true', List.isEmpty_eq_false_iff, Bool.or_eq_true, beq_iff_eq, decide_eq_true_eq]
  constructor
  · rintro ⟨_, ⟨⟨named, symbolic⟩, supplied⟩, _, names, initialSupply, initialRead, maxSupply,
      maxRead, _, supplies, buyTax, buyRead, sellTax, sellRead, receiver, receiverRead, access,
      accessRead, result⟩
    cases result
    exact ⟨rfl, rfl, named, symbolic, supplied, names, initialRead, maxRead, supplies, buyRead,
      sellRead, receiverRead, accessRead, rfl, rfl, rfl⟩
  · intro h
    have same : (⟨readText (valueOf data .name), readText (valueOf data .symbol), c.initialSupply,
        c.maxSupply, (valueOf data .mintable).isGiven, (valueOf data .burnable).isGiven,
        (valueOf data .pausable).isGiven, c.buyTax, c.sellTax, c.taxReceiver, c.access⟩ : Config) =
        c := by
      rw [← h.name, ← h.symbol, ← h.mintable, ← h.burnable, ← h.pausable]
    have named := h.named
    have symbolic := h.symbolic
    have names := h.names
    rw [h.name] at named names
    rw [h.symbol] at symbolic names
    exact ⟨⟨⟩, ⟨⟨named, symbolic⟩, h.supplied⟩, ⟨⟩, names, _, h.initialSupply, _, h.maxSupply, ⟨⟩,
      h.supplies, _, h.buyTax, _, h.sellTax, _, h.taxReceiver, _, h.access, congrArg _ same⟩

/-- The name and the symbol of an accepted configuration are checked. -/
theorem Config.ofMembers_names {members : List (Text × Json)} {c : Config}
    (h : Config.ofMembers members = .ok c) : NamesChecked c.name c.symbol :=
  (check_eq_ok_iff.mp h).names

end Token

end TokenForge

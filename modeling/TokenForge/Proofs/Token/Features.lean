import TokenForge.Proofs.Address
import TokenForge.Proofs.Import.Pasted
import TokenForge.Proofs.Text.Numeral
import TokenForge.Proofs.Token.Validate
import TokenForge.Token.Source

/-!
# Features of a checked configuration

A checked configuration asks for features without a fault (`Config.features_request`), so it has
a source (`Config.generate_request`).
Of the texts that go into its contract all but the name and the symbol are `Alphanumeric`:
numbers, addresses and the name of the contract have ASCII letters and digits only.
-/

namespace TokenForge

theorem Alphanumeric.quiet {s : Text} (h : Alphanumeric s) : Import.Quiet s := by
  intro c member
  constructor
  · rintro rfl
    exact h.not_mem (by decide) member
  · rintro rfl
    exact h.not_mem (by decide) member

namespace Token

/-- The features that a checked configuration asks for. -/
def Config.features (c : Config) : Features where
  name := c.name
  symbol := c.symbol
  contractName := contractName c.symbol
  initialSupply := Text.ofNat c.initialSupply
  shownSupply := Text.ofNat c.initialSupply
  maxSupply := Text.ofNat c.maxSupply
  hasInitialSupply := 0 < c.initialSupply
  hasMaxSupply := 0 < c.maxSupply
  hasTax := 0 < c.buyTax || 0 < c.sellTax
  mintable := c.mintable
  burnable := c.burnable
  pausable := c.pausable
  buyTax := Text.ofNat c.buyTax
  sellTax := Text.ofNat c.sellTax
  taxReceiver := c.taxReceiver.map Address.checksummed
  access := .known c.access

theorem supplyIsPositive_int (n : Nat) :
    supplyIsPositive (.int n) = .ok (decide (0 < n)) := by
  simp [supplyIsPositive, isPositive, Json.toInt]

theorem taxIsPositive_int (n : Nat) : taxIsPositive (.int n) = .ok (decide (0 < n)) := by
  cases n with
  | zero => rfl
  | succ n =>
    have given : (Json.int (n + 1 : Nat)).isEmpty = false := rfl
    rw [taxIsPositive, given]
    simp [isPositive, Json.toInt]

theorem hasTaxOf_int (n m : Nat) :
    hasTaxOf (.int n) (.int m) = .ok (decide (0 < n) || decide (0 < m)) := by
  rw [hasTaxOf, taxIsPositive_int, taxIsPositive_int]
  cases decide (0 < n) <;> rfl

theorem accessOf_name (a : Access) : accessOf (.text a.name) = .ok (.known a) := by
  simp [accessOf, Access.ofName?_name]

theorem isGiven_bool (b : Bool) : (Json.bool b).isGiven = b := by
  cases b <;> rfl

theorem shownSupply_int (n : Nat) :
    ((Json.int n).orElse (.int 0)).display = Text.ofNat n := by
  cases n <;> rfl

/-- A checked configuration has features. -/
theorem Config.features_request (c : Config) : c.request.features = .ok c.features := by
  obtain ⟨name, symbol, initialSupply, maxSupply, mintable, burnable, pausable, buyTax, sellTax,
    receiver, access⟩ := c
  cases receiver <;>
    simp only [Config.request, Request.features, Config.value, contractNameOf, Json.text?,
      accessOf_name, supplyIsPositive_int, hasTaxOf_int, shownSupply_int, isGiven_bool] <;>
    rfl

/-- A checked configuration has a source. -/
theorem Config.generate_request (c : Config) : generate c.request = .ok c.features.source := by
  rw [generate, c.features_request]
  rfl

/-- A source that is generated has the features of its request. -/
theorem features_of_generate {r : Request} {s : Source} (h : generate r = .ok s) :
    r.features = .ok s.features := by
  rw [generate] at h
  cases features : r.features with
  | error fault =>
    rw [features] at h
    cases h
  | ok f =>
    rw [features] at h
    cases h
    rfl

/-- A source that is generated is the source of its features. -/
theorem source_features_of_generate {r : Request} {s : Source} (h : generate r = .ok s) :
    s.features.source = s := by
  rw [generate, features_of_generate h] at h
  exact Except.ok.inj h

/-- The configuration with a name, a symbol, one token at the start and the defaults. -/
def plainConfig (name symbol : Text) : Config where
  name
  symbol
  initialSupply := 1
  maxSupply := 0
  mintable := false
  burnable := true
  pausable := false
  buyTax := 0
  sellTax := 0
  taxReceiver := none
  access := .ownable

/-! ## Letters and digits -/

theorem alphanumeric_contractName (symbol : Text) : Alphanumeric (contractName symbol) := by
  have ending : Alphanumeric nameEnding := by
    unfold Alphanumeric
    decide
  exact List.forall_mem_append.mpr ⟨fun c member => (List.mem_filter.mp member).2, ending⟩

theorem isAsciiAlphanumeric_of_hexValue? {c : Char} {n : Nat} (h : hexValue? c = some n) :
    isAsciiAlphanumeric c = true := by
  dsimp only [hexValue?] at h
  simp only [isAsciiAlphanumeric, Bool.or_eq_true, Bool.and_eq_true, decide_eq_true_eq]
  split_ifs at h <;> omega

theorem alphanumeric_checksummed (a : Address) : Alphanumeric a.checksummed := by
  have mark : Alphanumeric "0x" := by
    unfold Alphanumeric
    decide
  refine List.forall_mem_append.mpr ⟨mark, fun c member => ?_⟩
  have lower : Address.lowerChar c ∈ a.digits := by
    rw [← a.map_lowerChar_checksummedDigits]
    exact List.mem_map_of_mem member
  obtain ⟨n, small, same⟩ := Address.mem_digits lower
  exact isAsciiAlphanumeric_of_hexValue? (Address.hexValue?_eq_some_iff.mpr ⟨small, same⟩)

end Token

end TokenForge

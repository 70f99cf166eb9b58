import TokenForge.Proofs.Token.Readings
import TokenForge.Proofs.Token.Respelled

/-!
# Checking a configuration again

A check changes what it is given: names and addresses are stripped, numbers are read from
texts, addresses are checksummed, flags are read from any value.  What it answers it leaves
as it is: the fields of a configuration that was accepted, each under either of its names,
are accepted as the same configuration (`Config.ofMembers_idempotent`).
-/

namespace TokenForge

namespace Token

/-! ## Numbers -/

/-- A number that was read is read again. -/
theorem readAmount_int_of_readAmount {v : Json} {n : Nat} {label : Text}
    (read : readAmount v label = .ok n) (again : Text) : readAmount (.int n) again = .ok n :=
  (readAmount_of_writes (.int n)).mpr ⟨rfl, length_of_readAmount read⟩

theorem readTax_int_of_readTax {v : Json} {n : Nat} {label : Text}
    (read : readTax v label = .ok n) (again : Text) : readTax (.int n) again = .ok n := by
  obtain ⟨amount, within⟩ := readTax_eq_ok_iff.mp read
  exact readTax_eq_ok_iff.mpr ⟨readAmount_int_of_readAmount amount again, within⟩

/-! ## The fields of a configuration as members -/

/-- A choice among the names of each field. -/
structure Spelling where
  key : Field → Text
  named : ∀ field : Field, field.goesBy (key field) = true

/-- The names with underscores. -/
def Spelling.underscored : Spelling := ⟨Field.key, fun field => by cases field <;> decide⟩

/-- The names in camel case. -/
def Spelling.camelCase : Spelling := ⟨Field.camelKey, fun field => by cases field <;> decide⟩

/-- The fields of a configuration as members, each under the name that is chosen. -/
def Config.members (c : Config) (spelling : Spelling) : List (Text × Json) :=
  Field.all.map fun field => (spelling.key field, c.value field)

theorem Config.value_not_null (c : Config) (field : Field) : (c.value field).isNull = false := by
  cases field <;> rfl

theorem entriesFor_members (c : Config) (spelling : Spelling) (field : Field) :
    entriesFor (c.members spelling) field = [c.value field] := by
  have own (other : Field) : field.goesBy (spelling.key other) = decide (other = field) := by
    rw [Bool.eq_iff_iff, ← Field.normalKey_eq_key_iff,
      Field.normalKey_eq_key_iff.mpr (spelling.named other), decide_eq_true_eq]
    exact ⟨Field.key_inj, congrArg Field.key⟩
  have one : Field.all.filter (fun other => decide (other = field)) = [field] := by
    cases field <;> rfl
  rw [entriesFor, Config.members, List.filter_map, List.map_map]
  simp only [Function.comp_def, own, one, List.map_cons, List.map_nil]

/-- Each field is given the value that it has. -/
theorem given?_members (c : Config) (spelling : Spelling) (field : Field) :
    given? (normalizeKeys (Assoc.ofPairs (c.members spelling))) field = some (c.value field) := by
  have once : GivenOnce (c.members spelling) := fun field => by
    rw [entriesFor_members]
    exact Nat.le_refl 1
  rw [given?_normalizeKeys, valuesOf_of_givenOnce once, entriesFor_members,
    List.getLast?_singleton, Option.filter_some, c.value_not_null field]
  rfl

/-! ## Checking again -/

/-- What asks for a configuration that was accepted is accepted as that configuration. -/
theorem Checked.again {data again : Assoc Json} {c : Config} (h : Checked data c)
    (given : ∀ field, given? again field = some (c.value field)) : Checked again c := by
  have value (field : Field) : valueOf again field = c.value field := by
    rw [valueOf_eq, given, Option.getD_some]
  have zero (n : Nat) : (Json.int n).orElse (.int 0) = .int n := (Json.Writes.int n).orElse_eq
  constructor
  case name => rw [value, Config.value, readText_text (h.name ▸ stripped_readText _)]
  case symbol => rw [value, Config.value, readText_text (h.symbol ▸ stripped_readText _)]
  case named => exact h.named
  case symbolic => exact h.symbolic
  case supplied => rw [supplyGiven_eq, given, Config.value]
  case names => exact h.names
  case initialSupply => rw [value, Config.value, readAmount_int_of_readAmount h.initialSupply]
  case maxSupply => rw [value, Config.value, zero, readAmount_int_of_readAmount h.maxSupply]
  case supplies => exact h.supplies
  case buyTax => rw [value, Config.value, zero, readTax_int_of_readTax h.buyTax]
  case sellTax => rw [value, Config.value, zero, readTax_int_of_readTax h.sellTax]
  case taxReceiver => rw [value, Config.value, readReceiver_checksummed]
  case access => rw [value, Config.value, readAccess_name]
  case mintable => rw [value, Config.value, isGiven_bool]
  case burnable => rw [value, Config.value, isGiven_bool]
  case pausable => rw [value, Config.value, isGiven_bool]

/-- The fields of a configuration that was accepted are accepted again as the same configuration,
whichever of its names each of them goes by. -/
theorem Config.ofMembers_idempotent {members : List (Text × Json)} {c : Config}
    (accepted : Config.ofMembers members = .ok c) (spelling : Spelling) :
    Config.ofMembers (c.members spelling) = .ok c :=
  check_eq_ok_iff.mpr ((check_eq_ok_iff.mp accepted).again (given?_members c spelling))

/-- Members whose values all change when they are read. -/
def unusualMembers : List (Text × Json) := [("name", .text "\u00a0My Token\t"),
  ("symbol", .text " M-TK"), ("initialSupply", .text "+\u0661_\u0660\u0660\u0660"),
  ("max_supply", .text "0005000\n"), ("mintable", .text "no"), ("pausable", .array []),
  ("buyTax", .bool false), ("sell_tax", .text "025"),
  ("taxReceiver", .text "0Xabababababababababababababababababababab")]

/-- The configuration that they are read as. -/
def unusualConfig : Config where
  name := "My Token"
  symbol := "M-TK"
  initialSupply := 1000
  maxSupply := 5000
  mintable := true
  burnable := true
  pausable := false
  buyTax := 0
  sellTax := 25
  taxReceiver := some ⟨List.replicate 20 0xAB, rfl⟩
  access := .ownable

/-- The configuration is read from its own fields, too. -/
theorem Config.ofMembers_idempotent_unusualMembers :
    Config.ofMembers unusualMembers = .ok unusualConfig ∧
      Config.ofMembers (unusualConfig.members .underscored) = .ok unusualConfig ∧
      Config.ofMembers (unusualConfig.members .camelCase) = .ok unusualConfig := by
  have accepted : Config.ofMembers unusualMembers = .ok unusualConfig := rfl
  exact ⟨accepted, Config.ofMembers_idempotent accepted .underscored,
    Config.ofMembers_idempotent accepted .camelCase⟩

end Token

end TokenForge

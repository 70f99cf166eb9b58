import TokenForge.Proofs.Token.Members
import TokenForge.Proofs.Token.Rechecked

/-!
# The deployment form

The deployment form prints what it is given without a check.  `DeploymentForm` says what
it may be given here: stripped texts, numbers or the texts of their digits, and checksummed
addresses.  If the check accepts such an object, with what the form fixes in its place, the
form asks for the same features as the configuration (`DeploymentForm.exists_request`), so
both lead to the same source (`generate_deployment`).
-/

namespace TokenForge

namespace Token

open Text (Stripped)

/-! ## Features that are asked for -/

variable {v : Json} {n : Nat}

theorem isPositive_of_writes (h : v.Writes n) (short : (Text.ofNat n).length ≤ numeralLimit) :
    isPositive v = .ok (decide (0 < n)) := by
  have value : v.toInt = .ok (n : Int) := by
    rcases h with rfl | rfl
    · rfl
    · rw [Json.toInt, Text.toInt?_ofNat, if_pos short]
      rfl
  simp [isPositive, value]

theorem supplyIsPositive_of_writes (h : v.Writes n)
    (short : (Text.ofNat n).length ≤ numeralLimit) :
    supplyIsPositive v = .ok (decide (0 < n)) := by
  rw [← isPositive_of_writes h short]
  unfold supplyIsPositive
  split
  · rcases h with h | h <;> cases h
  · rcases h with h | h
    · cases h
    · exact absurd (Json.text.inj h).symm (Text.ofNat_ne_nil n)
  · rfl

theorem taxIsPositive_of_writes (h : v.Writes n)
    (short : (Text.ofNat n).length ≤ numeralLimit) :
    taxIsPositive v = .ok (decide (0 < n)) := by
  rcases h with rfl | rfl
  · exact taxIsPositive_int n
  · have given : (Text.ofNat n).isEmpty = false :=
      List.isEmpty_eq_false_iff.mpr (Text.ofNat_ne_nil n)
    rw [taxIsPositive, Json.isEmpty, given, if_neg Bool.false_ne_true,
      isPositive_of_writes (.inr rfl) short]

theorem hasTaxOf_eq {v w : Json} {a b : Bool} (first : taxIsPositive v = .ok a)
    (second : taxIsPositive w = .ok b) : hasTaxOf v w = .ok (a || b) := by
  rw [hasTaxOf, first, second]
  cases a <;> rfl

/-- A number that can be read back is written as a value. -/
structure Amount (v : Json) (n : Nat) : Prop where
  writes : v.Writes n
  short : (Text.ofNat n).length ≤ numeralLimit

/-- The values of a request are those of a configuration, but for numbers that are written as
texts. -/
structure Request.Asks (r : Request) (c : Config) : Prop where
  name : r.value .name = .text c.name
  symbol : r.value .symbol = .text c.symbol
  initialSupply : Amount (r.value .initialSupply) c.initialSupply
  maxSupply : Amount (r.value .maxSupply) c.maxSupply
  mintable : (r.value .mintable).isGiven = c.mintable
  burnable : (r.value .burnable).isGiven = c.burnable
  pausable : (r.value .pausable).isGiven = c.pausable
  buyTax : Amount (r.value .buyTax) c.buyTax
  sellTax : Amount (r.value .sellTax) c.sellTax
  taxReceiver : r.value .taxReceiver = .text (c.taxReceiver.elim [] Address.checksummed)
  access : r.value .accessControl = .text c.access.name

/-- Such a request has the features of the configuration. -/
theorem Request.Asks.features_eq {r : Request} {c : Config} (h : r.Asks c) :
    r.features = .ok c.features := by
  have taxed := hasTaxOf_eq (taxIsPositive_of_writes h.buyTax.writes h.buyTax.short)
    (taxIsPositive_of_writes h.sellTax.writes h.sellTax.short)
  have limited := supplyIsPositive_of_writes h.maxSupply.writes h.maxSupply.short
  have supplied := supplyIsPositive_of_writes h.initialSupply.writes h.initialSupply.short
  have receiver : (if (r.value .taxReceiver).isEmpty then none
      else some (r.value .taxReceiver).display) = c.features.taxReceiver := by
    rw [h.taxReceiver, Config.features]
    rcases c.taxReceiver with _ | a <;> rfl
  unfold Request.features
  dsimp only
  rw [receiver, h.name, h.symbol, h.access, h.mintable, h.burnable,
    h.pausable, taxed, limited, supplied, accessOf_name, h.initialSupply.writes.orElse_eq,
    h.initialSupply.writes.display_eq, h.maxSupply.writes.display_eq,
    h.buyTax.writes.display_eq, h.sellTax.writes.display_eq]
  rfl

/-! ## The members of the form -/

/-- What the deployment form fixes. -/
def fixedMembers : Assoc Json := [(Field.burnable.camelKey, .bool true),
  (Field.pausable.camelKey, .bool false),
  (Field.accessControl.camelKey, .text Access.ownable.name)]

/-- What the deployment form may be given. -/
structure DeploymentForm (members : Assoc Json) : Prop where
  distinct : (Assoc.keys members).Nodup
  /-- Fields go by their names in camel case. -/
  camelCase : ∀ field : Field, field.key ∈ Assoc.keys members → field.key = field.camelKey
  texts : ∀ field ∈ [Field.name, .symbol], ∃ s, Assoc.get? members field.key = some (.text s) ∧
    Stripped s
  numbers : ∀ field ∈ [Field.initialSupply, .maxSupply, .buyTax, .sellTax],
    ∀ v ∈ Assoc.get? members field.camelKey, v = .null ∨ ∃ n, v.Writes n
  taxReceiver : ∀ v ∈ Assoc.get? members Field.taxReceiver.camelKey,
    v = .null ∨ v = .text [] ∨ ∃ a : Address, v = .text a.checksummed

/-- If fields go by their names in camel case, a field has the value of the member with its
name. -/
theorem get?_normalizeKeys_of_camelCase {members : Assoc Json}
    (distinct : (Assoc.keys members).Nodup)
    (camelCase : ∀ field : Field, field.key ∈ Assoc.keys members → field.key = field.camelKey)
    (field : Field) : Assoc.get? (normalizeKeys (Assoc.ofPairs members)) field.key =
      Assoc.get? members field.camelKey := by
  have named : ∀ m ∈ members, field.goesBy m.1 = decide (m.1 = field.camelKey) := by
    intro m member
    rw [Bool.eq_iff_iff, Field.goesBy, decide_eq_true_eq, decide_eq_true_eq]
    refine ⟨fun either => either.elim (fun key => ?_) id, .inr⟩
    rw [key]
    exact camelCase field (key ▸ List.mem_map_of_mem member)
  have values := Assoc.get?_ofPairs members field.camelKey
  rw [Assoc.ofPairs_of_nodup distinct] at values
  rw [get?_normalizeKeys, valuesOf, Assoc.ofPairs_of_nodup distinct, List.filter_congr named,
    values]

/-- The members that are checked: those of the form, with what it fixes. -/
def checkedMembers (members : Assoc Json) : Assoc Json := Assoc.merge members fixedMembers

/-- The value that is checked for a field. -/
def checkedValue (members : Assoc Json) (field : Field) : Json :=
  valueOf (normalizeKeys (Assoc.ofPairs (checkedMembers members))) field

namespace DeploymentForm

variable {members : Assoc Json} {field : Field}

/-- The value that is fixed is checked, or else the one that is given. -/
theorem checkedValue_eq (form : DeploymentForm members) (field : Field) :
    checkedValue members field = (((Assoc.get? fixedMembers.reverse field.camelKey).or
      (Assoc.get? members field.camelKey)).filter fun v => !v.isNull).getD field.default := by
  rw [checkedValue, valueOf_eq, given?, checkedMembers, get?_normalizeKeys_of_camelCase
    (Assoc.nodup_keys_merge form.distinct fixedMembers), Assoc.merge, Assoc.get?_foldl_put]
  intro other member
  rcases Assoc.mem_keys_merge.mp member with given | fixed
  · exact form.camelCase other given
  · revert fixed
    cases other <;> decide

theorem checkedValue_of_free (form : DeploymentForm members)
    (free : Assoc.get? fixedMembers.reverse field.camelKey = none) :
    checkedValue members field =
      ((Assoc.get? members field.camelKey).filter fun v => !v.isNull).getD field.default := by
  rw [form.checkedValue_eq, free, Option.none_or]

theorem checkedValue_of_fixed (form : DeploymentForm members) {v : Json}
    (fixed : Assoc.get? fixedMembers.reverse field.camelKey = some v)
    (notNull : v.isNull = false) : checkedValue members field = v := by
  rw [form.checkedValue_eq, fixed, Option.some_or, Option.filter_some, notNull]
  rfl

/-- The value that is checked for a supply or a tax is a written number, and it is the one that
the form uses. -/
theorem checkedValue_number (form : DeploymentForm members)
    (number : field ∈ [Field.initialSupply, .maxSupply, .buyTax, .sellTax]) :
    ∃ n, (givenOrDefault members field).Writes n ∧
      checkedValue members field = givenOrDefault members field := by
  obtain ⟨free, zero⟩ : Assoc.get? fixedMembers.reverse field.camelKey = none ∧
      field.default = .int 0 := by
    simp only [List.mem_cons, List.not_mem_nil, or_false] at number
    rcases number with rfl | rfl | rfl | rfl <;> exact ⟨rfl, rfl⟩
  rw [form.checkedValue_of_free free, givenOrDefault, zero]
  rcases given : Assoc.get? members field.camelKey with _ | v
  · exact ⟨0, .int 0, rfl⟩
  · rcases form.numbers field number v given with rfl | ⟨n, writes⟩
    · exact ⟨0, .int 0, rfl⟩
    · have notNull : v.isNull = false := by
        rcases writes with rfl | rfl <;> rfl
      rw [Option.filter_some, notNull, Option.getD_some, writes.orElse_eq]
      exact ⟨n, writes, rfl⟩

/-- The number that is read in the check is the one that the form uses. -/
theorem amount (form : DeploymentForm members) {m : Nat} {label : Text}
    (number : field ∈ [Field.initialSupply, .maxSupply, .buyTax, .sellTax])
    (read : readAmount ((checkedValue members field).orElse (.int 0)) label = .ok m) :
    Amount (givenOrDefault members field) m := by
  obtain ⟨n, writes, same⟩ := form.checkedValue_number number
  rw [same, writes.orElse_eq] at read
  obtain ⟨rfl, short⟩ := (readAmount_of_writes writes).mp read
  exact ⟨writes, short⟩

/-- The tax receiver that is checked is that of an address or the deployer, and it is the one
that the form uses. -/
theorem checkedValue_receiver (form : DeploymentForm members) : ∃ receiver : Option Address,
    checkedValue members .taxReceiver = .text (receiver.elim [] Address.checksummed) ∧
      givenOrDefault members .taxReceiver = .text (receiver.elim [] Address.checksummed) := by
  rw [form.checkedValue_of_free rfl, givenOrDefault]
  rcases given : Assoc.get? members Field.taxReceiver.camelKey with _ | v
  · exact ⟨none, rfl, rfl⟩
  · rcases form.taxReceiver v given with rfl | rfl | ⟨a, rfl⟩
    · exact ⟨none, rfl, rfl⟩
    · exact ⟨none, rfl, rfl⟩
    · exact ⟨some a, rfl, rfl⟩

/-- The text that is read in the check is the one that the form uses. -/
theorem readText_checkedValue (form : DeploymentForm members) {s : Text}
    (free : Assoc.get? fixedMembers.reverse field.camelKey = none)
    (given : Assoc.get? members field.camelKey = some (.text s)) (stripped : Stripped s) :
    readText (checkedValue members field) = s := by
  rw [form.checkedValue_of_free free, given]
  exact readText_text stripped

/-- A flag is missing or null in the check if it is for the form. -/
theorem isGiven_mintable (form : DeploymentForm members) :
    (checkedValue members .mintable).isGiven =
      ((Assoc.get? members Field.mintable.key).getD .null).isGiven := by
  have name : Field.mintable.camelKey = Field.mintable.key := rfl
  rw [form.checkedValue_of_free rfl, name]
  rcases Assoc.get? members Field.mintable.key with _ | (_ | _) <;> rfl

/-- What the form is given makes a request that asks for the configuration that is checked. -/
theorem exists_request (form : DeploymentForm members) {c : Config}
    (accepted : Config.ofMembers (checkedMembers members) = .ok c) :
    ∃ r, deploymentRequest members = .ok r ∧ r.Asks c := by
  have checked : Checked _ c := check_eq_ok_iff.mp accepted
  obtain ⟨name, named, nameStripped⟩ := form.texts .name (by simp)
  obtain ⟨symbol, symbolic, symbolStripped⟩ := form.texts .symbol (by simp)
  obtain ⟨receiver, receiverChecked, receiverGiven⟩ := form.checkedValue_receiver
  have nameRead : c.name = name :=
    checked.name.trans (form.readText_checkedValue rfl named nameStripped)
  have symbolRead : c.symbol = symbol :=
    checked.symbol.trans (form.readText_checkedValue rfl symbolic symbolStripped)
  have supplyRead : readAmount ((checkedValue members .initialSupply).orElse (.int 0))
      "Initial supply" = .ok c.initialSupply := by
    obtain ⟨n, writes, same⟩ := form.checkedValue_number (by simp : Field.initialSupply ∈ _)
    rw [same, writes.orElse_eq, ← same]
    exact checked.initialSupply
  have receiverRead : receiver = c.taxReceiver := by
    have read : readReceiver (checkedValue members .taxReceiver) = .ok c.taxReceiver :=
      checked.taxReceiver
    rw [receiverChecked, readReceiver_checksummed] at read
    exact Except.ok.inj read
  have accessRead : Access.ownable = c.access := by
    have read : readAccess (checkedValue members .accessControl) = .ok c.access := checked.access
    rw [form.checkedValue_of_fixed rfl rfl, readAccess_name] at read
    exact Except.ok.inj read
  have burnable : c.burnable = (checkedValue members .burnable).isGiven := checked.burnable
  have pausable : c.pausable = (checkedValue members .pausable).isGiven := checked.pausable
  rw [form.checkedValue_of_fixed rfl rfl] at burnable pausable
  rw [deploymentRequest, named, symbolic]
  refine ⟨_, rfl, ?_⟩
  constructor
  case name => exact congrArg Json.text nameRead.symm
  case symbol => exact congrArg Json.text symbolRead.symm
  case initialSupply => exact form.amount (by simp) supplyRead
  case maxSupply => exact form.amount (by simp) checked.maxSupply
  case buyTax => exact form.amount (by simp) (readTax_eq_ok_iff.mp checked.buyTax).1
  case sellTax => exact form.amount (by simp) (readTax_eq_ok_iff.mp checked.sellTax).1
  case mintable =>
    rw [checked.mintable]
    exact (isGiven_bool _).trans form.isGiven_mintable.symm
  case burnable => exact burnable.symm
  case pausable => exact pausable.symm
  case taxReceiver => exact receiverRead ▸ receiverGiven
  case access => exact congrArg (fun a : Access => Json.text a.name) accessRead

end DeploymentForm

/-! ## The same source -/

/-- If what the form is given is accepted, beside what the form fixes, the form generates the
source of the configuration that was accepted: the text and its digest, the name of the contract
and the features are the same. -/
theorem generate_deployment {members : Assoc Json} (form : DeploymentForm members) {c : Config}
    (accepted : Config.ofMembers (checkedMembers members) = .ok c) :
    ∃ r s, deploymentRequest members = .ok r ∧ generate r = .ok s ∧
      generate c.request = .ok s := by
  obtain ⟨r, requested, asks⟩ := form.exists_request accepted
  refine ⟨r, c.features.source, requested, ?_, c.generate_request⟩
  rw [generate, asks.features_eq]
  rfl

/-- Members with numbers of every kind, a flag that is a text and others that are not used. -/
def mixedMembers : Assoc Json := [("name", .text "My Token"), ("symbol", .text "M-TK"),
  ("initialSupply", .text "1000"), ("maxSupply", .int 5000), ("mintable", .text "no"),
  ("buyTax", .null), ("sellTax", .text "25"), ("owner", .text "me"), ("burnable", .bool false),
  ("taxReceiver", .text "")]

/-- The configuration that they are checked as, beside what the form fixes. -/
def mixedConfig : Config := { unusualConfig with taxReceiver := none }

theorem deploymentForm_mixedMembers : DeploymentForm mixedMembers := by
  constructor
  case distinct => decide
  case camelCase =>
    intro field
    cases field <;> decide
  case texts =>
    intro field text
    simp only [List.mem_cons, List.not_mem_nil, or_false] at text
    rcases text with rfl | rfl
    · exact ⟨"My Token", rfl, Text.stripped_strip "My Token"⟩
    · exact ⟨"M-TK", rfl, Text.stripped_strip "M-TK"⟩
  case numbers =>
    intro field number v given
    simp only [List.mem_cons, List.not_mem_nil, or_false] at number
    rcases number with rfl | rfl | rfl | rfl <;> cases given
    · exact .inr ⟨1000, .inr rfl⟩
    · exact .inr ⟨5000, .inl rfl⟩
    · exact .inl rfl
    · exact .inr ⟨25, .inr rfl⟩
  case taxReceiver =>
    intro v given
    cases given
    exact .inr (.inl rfl)

/-- They lead to the source of that configuration. -/
theorem generate_deployment_mixedMembers :
    DeploymentForm mixedMembers ∧
      Config.ofMembers (checkedMembers mixedMembers) = .ok mixedConfig ∧
      ∃ r s, deploymentRequest mixedMembers = .ok r ∧ generate r = .ok s ∧
        generate mixedConfig.request = .ok s := by
  have accepted : Config.ofMembers (checkedMembers mixedMembers) = .ok mixedConfig := rfl
  exact ⟨deploymentForm_mixedMembers, accepted,
    generate_deployment deploymentForm_mixedMembers accepted⟩

end Token

end TokenForge

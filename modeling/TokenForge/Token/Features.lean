import TokenForge.Token.Config
import TokenForge.Token.Identifier

/-!
# Features of a token

`Features` is what the contract of a token depends on: the texts that are pasted
into it and the switches that decide which parts it has.  `Request.features`
reads them from a request without any further check of the values: a supply or a
tax switches a part on if it stands for a positive integer, a flag if its value
is not empty, and every value is pasted as it is displayed.
-/

namespace TokenForge

namespace Token

/-- The access model of a contract. -/
inductive AccessChoice where
  | known (access : Access)
  /-- Some other value, by its text: privileged functions are there and not guarded. -/
  | other (label : Text)
  deriving DecidableEq, Repr

/-- What the contract of a token depends on. -/
structure Features where
  name : Text
  symbol : Text
  contractName : Text
  initialSupply : Text
  /-- The initial supply as the documentation shows it. -/
  shownSupply : Text
  maxSupply : Text
  /-- Whether there are tokens at the start. -/
  hasInitialSupply : Bool
  /-- Whether the supply is limited. -/
  hasMaxSupply : Bool
  /-- Whether transfers are taxed. -/
  hasTax : Bool
  mintable : Bool
  burnable : Bool
  pausable : Bool
  buyTax : Text
  sellTax : Text
  /-- The account that taxes go to; the deployer, if there is none. -/
  taxReceiver : Option Text
  access : AccessChoice
  deriving DecidableEq, Repr

/-- Why a request has no features. -/
inductive FeatureFault where
  /-- The symbol is neither empty nor a text. -/
  | symbolNotText
  /-- The access model is a list or an object. -/
  | accessNotAtomic
  /-- A supply or a tax stands for no integer. -/
  | notAnInteger (reason : Json.NoInteger)
  deriving DecidableEq, Repr

/-- The name of the contract for the value of a symbol. -/
def contractNameOf (symbol : Json) : Except FeatureFault Text :=
  match symbol.text? with
  | some s => .ok (contractName s)
  | none => if symbol.isEmpty then .ok (contractName []) else .error .symbolNotText

/-- The access model of a value. -/
def accessOf (v : Json) : Except FeatureFault AccessChoice :=
  match v with
  | .array _ | .object _ | .illKeyed _ => .error .accessNotAtomic
  | .text name =>
    match Access.ofName? name with
    | some access => .ok (.known access)
    | none => .ok (.other name)
  | v => .ok (.other v.display)

/-- Whether a value stands for a positive integer. -/
def isPositive (v : Json) : Except FeatureFault Bool :=
  match v.toInt with
  | .ok n => .ok (0 < n)
  | .error reason => .error (.notAnInteger reason)

/-- Whether a supply is positive.  Null and the empty text count as zero. -/
def supplyIsPositive (v : Json) : Except FeatureFault Bool :=
  match v with
  | .null | .text [] => .ok false
  | v => isPositive v

/-- Whether a tax is positive.  Empty values count as zero. -/
def taxIsPositive (v : Json) : Except FeatureFault Bool :=
  if v.isEmpty then .ok false else isPositive v

/-- Whether one of two taxes is positive.  The second is looked at only if the first is not. -/
def hasTaxOf (buyTax sellTax : Json) : Except FeatureFault Bool := do
  if ← taxIsPositive buyTax then return true
  taxIsPositive sellTax

/-- The features that a request asks for. -/
def Request.features (r : Request) : Except FeatureFault Features := do
  let contractName ← contractNameOf (r.value .symbol)
  let access ← accessOf (r.value .accessControl)
  let hasMaxSupply ← supplyIsPositive (r.value .maxSupply)
  let hasTax ← hasTaxOf (r.value .buyTax) (r.value .sellTax)
  let hasInitialSupply ← supplyIsPositive (r.value .initialSupply)
  let receiver := r.value .taxReceiver
  return {
    name := (r.value .name).display
    symbol := (r.value .symbol).display
    contractName
    initialSupply := (r.value .initialSupply).display
    shownSupply := ((r.value .initialSupply).orElse (.int 0)).display
    maxSupply := (r.value .maxSupply).display
    hasInitialSupply, hasMaxSupply, hasTax
    mintable := (r.value .mintable).isGiven
    burnable := (r.value .burnable).isGiven
    pausable := (r.value .pausable).isGiven
    buyTax := (r.value .buyTax).display
    sellTax := (r.value .sellTax).display
    taxReceiver := if receiver.isEmpty then none else some receiver.display
    access }

end Token

end TokenForge

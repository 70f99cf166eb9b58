import TokenForge.Token.Config
import TokenForge.Token.Identifier

/-!
# Checking configurations

`Config.ofMembers` checks a JSON object and fills in what is not given.  Fields
may go by either name; of two values for one field the later counts.  A null
value counts as not given, and a field that is not known does not count.

The checks are made in a fixed order, and the first that fails gives the fault.
Supplies and taxes are read from the text of their values, so numbers and
written numbers count alike; truth values are refused.
-/

namespace TokenForge

namespace Token

/-! ## Faults -/

/-- Why a configuration is refused. -/
inductive Fault where
  /-- The name, the symbol or the initial supply is not given. -/
  | incomplete
  | symbolTooLong
  /-- The name or the symbol holds a double quote, a backslash or a line break. -/
  | forbiddenCharacter
  | notAscii
  /-- The symbol has neither letter nor digit. -/
  | emptyIdentifier
  /-- The first letter or digit of the symbol is a digit. -/
  | leadingDigit
  /-- A value is not a non-negative integer. -/
  | notAnAmount (label : Text)
  | supplyAboveMaximum
  | taxTooHigh
  | notAnAddress (text : Text)
  | unknownAccess
  deriving DecidableEq, Repr

/-- The greatest length of a symbol. -/
def maxSymbolLength : Nat := 11

/-- The highest tax in percent. -/
def maxTax : Nat := 25

/-- A fault in words. -/
def Fault.message : Fault → Text
  | .incomplete => "Name, symbol, and initial supply are required"
  | .symbolTooLong => "Symbol must be " ++ Text.ofNat maxSymbolLength ++ " characters or less"
  | .forbiddenCharacter => "Name and symbol may not contain quotes, backslashes or line breaks"
  | .notAscii => "Name and symbol must be ASCII"
  | .emptyIdentifier => "Symbol must contain at least one letter or digit"
  | .leadingDigit => "Symbol must not start with a digit"
  | .notAnAmount label => label ++ " must be a non-negative integer"
  | .supplyAboveMaximum => "Max supply must be greater than or equal to initial supply"
  | .taxTooHigh => "Tax cannot exceed " ++ Text.ofNat maxTax ++ "%"
  | .notAnAddress text => "Invalid tax receiver address: " ++ text
  | .unknownAccess =>
    "Access control must be one of " ++ List.intercalate ", " (Access.all.map Access.name)

/-! ## Values -/

/-- The members of an object under the names with underscores. -/
def normalizeKeys (members : Assoc Json) : Assoc Json :=
  Assoc.ofPairs (members.map fun (key, v) => (Field.normalKey key, v))

/-- Reads a number of tokens. -/
def readAmount (v : Json) (label : Text) : Except Fault Nat :=
  match v with
  | .bool _ => .error (.notAnAmount label)
  | v =>
    match Text.toInt? (Text.strip v.display) with
    | some (.ofNat n) => .ok n
    | _ => .error (.notAnAmount label)

/-- Reads a tax in percent. -/
def readTax (v : Json) (label : Text) : Except Fault Nat := do
  let tax ← readAmount v label
  if maxTax < tax then throw .taxTooHigh
  return tax

/-- The stripped text of a value, nothing for an empty value. -/
def readText (v : Json) : Text := if v.isEmpty then [] else Text.strip v.display

/-- Whether a character may not stand in a name or a symbol. -/
def isForbidden (c : Char) : Bool := c == '"' || c == '\\' || c == '\n' || c == '\r'

/-- The value that counts for a field. -/
def valueOf (data : Assoc Json) (field : Field) : Json :=
  match Assoc.get? data field.key with
  | none | some .null => field.default
  | some v => v

/-- Whether an initial supply is given: it is not null and no empty text. -/
def supplyGiven (data : Assoc Json) : Bool :=
  match Assoc.get? data Field.initialSupply.key with
  | none | some .null | some (.text []) => false
  | some _ => true

/-! ## Checks -/

/-- Fails unless a condition holds. -/
def require (condition : Bool) (fault : Fault) : Except Fault PUnit :=
  if condition then .ok ⟨⟩ else .error fault

/-- Checks a name and a symbol. -/
def checkNames (name symbol : Text) : Except Fault PUnit := do
  require (symbol.length ≤ maxSymbolLength) .symbolTooLong
  require (!name.any isForbidden && !symbol.any isForbidden) .forbiddenCharacter
  require (Text.isAscii name && Text.isAscii symbol) .notAscii
  match symbol.filter isAsciiAlphanumeric with
  | [] => .error .emptyIdentifier
  | c :: _ => require (!isAsciiDigit c) .leadingDigit

/-- Reads the account that taxes go to. -/
def readReceiver (v : Json) : Except Fault (Option Address) :=
  match readText v with
  | [] => .ok none
  | text =>
    match Address.parse? text with
    | some address => .ok (some address)
    | none => .error (.notAnAddress text)

/-- Reads an access model. -/
def readAccess (v : Json) : Except Fault Access :=
  match v with
  | .text name =>
    match Access.ofName? name with
    | some access => .ok access
    | none => .error .unknownAccess
  | _ => .error .unknownAccess

/-- Checks the members of an object under the names with underscores. -/
def check (data : Assoc Json) : Except Fault Config := do
  let name := readText (valueOf data .name)
  let symbol := readText (valueOf data .symbol)
  require (!name.isEmpty && !symbol.isEmpty && supplyGiven data) .incomplete
  checkNames name symbol
  let initialSupply ← readAmount (valueOf data .initialSupply) "Initial supply"
  let maxSupply ← readAmount ((valueOf data .maxSupply).orElse (.int 0)) "Max supply"
  require (maxSupply == 0 || initialSupply ≤ maxSupply) .supplyAboveMaximum
  let buyTax ← readTax ((valueOf data .buyTax).orElse (.int 0)) "Buy tax"
  let sellTax ← readTax ((valueOf data .sellTax).orElse (.int 0)) "Sell tax"
  let taxReceiver ← readReceiver (valueOf data .taxReceiver)
  let access ← readAccess (valueOf data .accessControl)
  return {
    name, symbol, initialSupply, maxSupply
    mintable := (valueOf data .mintable).isGiven
    burnable := (valueOf data .burnable).isGiven
    pausable := (valueOf data .pausable).isGiven
    buyTax, sellTax, taxReceiver, access }

/-- Checks the members of an object, of which later ones count. -/
def Config.ofMembers (members : List (Text × Json)) : Except Fault Config :=
  check (normalizeKeys (Assoc.ofPairs members))

end Token

end TokenForge

import TokenForge.Import.Resolver
import TokenForge.Solidity.Printer
import TokenForge.Token.Features
import TokenForge.Token.Validate

/-!
# The contract of a token

The contract is put together from parts, each decided by the features alone:
bases, state, events, constructor, the functions to mint, to pause and to change
the taxes, the hook that every transfer goes through, and the interface query
of role based access.

A privileged function is guarded by the access model.  Without an access model
there are no functions to pause, to change the taxes or to end minting, and
minting is open to everybody.
-/

namespace TokenForge

namespace Token

open Solidity

/-! ## Names -/

/-- The bases that a contract may have. -/
inductive Base where
  | erc20
  | burnable
  | pausable
  | ownable
  | accessControl
  deriving DecidableEq, Repr

/-- The name of a base. -/
def Base.name : Base → Text
  | .erc20 => "ERC20"
  | .burnable => "ERC20Burnable"
  | .pausable => "ERC20Pausable"
  | .ownable => "Ownable"
  | .accessControl => "AccessControl"

/-- The file of a base inside the shared contract library. -/
def Base.file : Base → Text
  | .erc20 => "token/ERC20/ERC20.sol"
  | .burnable => "token/ERC20/extensions/ERC20Burnable.sol"
  | .pausable => "token/ERC20/extensions/ERC20Pausable.sol"
  | .ownable => "access/Ownable.sol"
  | .accessControl => "access/AccessControl.sol"

/-- The path by which a base is imported. -/
def Base.path (b : Base) : Text := Import.libraryPrefix ++ "/" ++ b.file

/-- The role that may mint. -/
def minterRole : Text := "MINTER_ROLE"

/-- The role that may pause. -/
def pauserRole : Text := "PAUSER_ROLE"

/-- The role that may do everything else. -/
def adminRole : Text := "DEFAULT_ADMIN_ROLE"

/-- The account that sends a transaction. -/
def sender : Expr := .name "msg.sender"

namespace Features

variable (f : Features)

/-- Whether access is by owner. -/
def isOwnable : Bool := f.access == .known .ownable

/-- Whether access is by roles. -/
def hasRoles : Bool := f.access == .known .roles

/-- Whether there are no privileged functions. -/
def isUnrestricted : Bool := f.access == .known .unrestricted

/-! ## Bases and state -/

/-- The bases, in order. -/
def bases : List Base :=
  [.erc20] ++ (if f.burnable then [.burnable] else []) ++
    (if f.pausable then [.pausable] else []) ++
    (if f.isOwnable then [.ownable] else if f.hasRoles then [.accessControl] else [])

/-- The state of the taxes. -/
def taxState : List Declaration := [
  .variable "uint256" "buyTaxPercent",
  .variable "uint256" "sellTaxPercent",
  .variable "address" "taxReceiver",
  .gap,
  .mapping "address" "bool" "isDexPair",
  .mapping "address" "bool" "isExcludedFromTax"]

/-- The state. -/
def state : List Declaration :=
  (if f.hasMaxSupply then [.variable "uint256" "maxSupply"] else []) ++
    (if f.mintable then [.variable "bool" "mintable"] else []) ++
    (if f.hasTax then taxState else []) ++
    (if f.hasRoles && f.mintable then [.role minterRole] else []) ++
    (if f.hasRoles && f.pausable then [.role pauserRole] else [])

/-- The events of the taxes. -/
def taxEvents : List Event := [
  ⟨"TaxUpdated", [⟨"uint256", "buyTax"⟩, ⟨"uint256", "sellTax"⟩]⟩,
  ⟨"TaxReceiverUpdated", [⟨"address", "newReceiver"⟩]⟩,
  ⟨"DexPairUpdated", [⟨"address", "pair"⟩, ⟨"bool", "status"⟩]⟩,
  ⟨"ExcludedFromTax", [⟨"address", "account"⟩, ⟨"bool", "excluded"⟩]⟩]

/-- The events. -/
def events : List Event := if f.hasTax then taxEvents else []

/-! ## Constructor -/

/-- A number of whole tokens in the smallest unit. -/
def scaled (amount : Text) : Expr :=
  .binary .times (.pasted amount) (.binary .power (.number 10) (.call "decimals" []))

/-- A call that gives the deployer a role. -/
def grant (role : Text) : Stmt := .run (.call "_grantRole" [.name role, sender])

/-- The roles that the deployer gets. -/
def grants : List Stmt :=
  if f.hasRoles then
    [grant adminRole] ++ (if f.mintable then [grant minterRole] else []) ++
      (if f.pausable then [grant pauserRole] else [])
  else []

/-- The account that taxes go to at the start. -/
def receiver : Expr :=
  match f.taxReceiver with
  | some account => .call "address" [.pasted account]
  | none => sender

/-- The start of the taxes. -/
def taxSetup : List Stmt := [
  .assign (.name "buyTaxPercent") (.pasted f.buyTax),
  .assign (.name "sellTaxPercent") (.pasted f.sellTax),
  .assign (.name "taxReceiver") f.receiver,
  .gap,
  .assign (.entry "isExcludedFromTax" sender) (.name "true"),
  .assign (.entry "isExcludedFromTax" (.call "address" [.name "this"])) (.name "true")]

/-- What the constructor does before it mints. -/
def setup : List Stmt :=
  f.grants ++
    (if f.hasMaxSupply then [.assign (.name "maxSupply") (scaled f.maxSupply)] else []) ++
    (if f.mintable then [.assign (.name "mintable") (.name "true")] else []) ++
    (if f.hasTax then f.taxSetup else [])

/-- Statements and a gap after them; nothing, if there are no statements. -/
def withGap : List Stmt → List Stmt
  | [] => []
  | body => body ++ [.gap]

/-- The constructor. -/
def constructor : Constructor where
  bases :=
    [.call "ERC20" [.quoted f.name, .quoted f.symbol]] ++
      (if f.isOwnable then [.call "Ownable" [sender]] else [])
  body :=
    if f.hasInitialSupply then
      withGap f.setup ++ [.run (.call "_mint" [sender, scaled f.initialSupply])]
    else f.setup

/-! ## Privileged functions -/

/-- The guard of a function that the holders of a role may call under role based access. -/
def guard (role : Text) : List Qualifier :=
  if f.isOwnable then [.onlyOwner] else if f.hasRoles then [.onlyRole role] else []

/-- A function that is called from outside. -/
def external (name : Text) (parameters : List Parameter) (guard : List Qualifier)
    (body : List Stmt) : Function :=
  ⟨name, parameters, false, .word "external" :: guard, body⟩

/-- A call of a check with its message. -/
def requires (condition : Expr) (message : Text) : Stmt :=
  .run (.call "require" [condition, .string message])

/-- The check that minting keeps to the greatest supply. -/
def limitCheck : Stmt :=
  .branch [.binary .greater (.name "maxSupply") (.number 0)]
    [requires
      (.binary .atMost (.binary .plus (.call "totalSupply" []) (.name "amount"))
        (.name "maxSupply"))
      "Exceeds max supply"]
    []

/-- The function to mint. -/
def mint : List Function :=
  if f.mintable then
    [external "mint" [⟨"address", "to"⟩, ⟨"uint256", "amount"⟩] (f.guard minterRole)
      ([requires (.name "mintable") "Minting disabled"] ++
        (if f.hasMaxSupply then [limitCheck] else []) ++
        [.run (.call "_mint" [.name "to", .name "amount"])])]
  else []

/-- The functions to pause and to go on. -/
def pause : List Function :=
  if f.pausable && !f.isUnrestricted then [
    external "pause" [] (f.guard pauserRole) [.run (.call "_pause" [])],
    external "unpause" [] (f.guard pauserRole) [.run (.call "_unpause" [])]]
  else []

/-- The function to change the taxes. -/
def setTaxPercent : Function :=
  external "setTaxPercent" [⟨"uint256", "buyTax_"⟩, ⟨"uint256", "sellTax_"⟩] (f.guard adminRole) [
    requires (.binary .atMost (.name "buyTax_") (.number maxTax)) "Buy tax too high",
    requires (.binary .atMost (.name "sellTax_") (.number maxTax)) "Sell tax too high",
    .assign (.name "buyTaxPercent") (.name "buyTax_"),
    .assign (.name "sellTaxPercent") (.name "sellTax_"),
    .emit "TaxUpdated" [.name "buyTax_", .name "sellTax_"]]

/-- The function to change the account that taxes go to. -/
def setTaxReceiver : Function :=
  external "setTaxReceiver" [⟨"address", "receiver_"⟩] (f.guard adminRole) [
    requires (.binary .unequal (.name "receiver_") (.call "address" [.number 0])) "Invalid address",
    .assign (.name "taxReceiver") (.name "receiver_"),
    .emit "TaxReceiverUpdated" [.name "receiver_"]]

/-- The function to mark an account as a pair of an exchange. -/
def setDexPair : Function :=
  external "setDexPair" [⟨"address", "pair_"⟩, ⟨"bool", "status_"⟩] (f.guard adminRole) [
    .assign (.entry "isDexPair" (.name "pair_")) (.name "status_"),
    .emit "DexPairUpdated" [.name "pair_", .name "status_"]]

/-- The function to exempt an account from taxes. -/
def setExcludedFromTax : Function :=
  external "setExcludedFromTax" [⟨"address", "account_"⟩, ⟨"bool", "excluded_"⟩]
    (f.guard adminRole) [
    .assign (.entry "isExcludedFromTax" (.name "account_")) (.name "excluded_"),
    .emit "ExcludedFromTax" [.name "account_", .name "excluded_"]]

/-- The functions to change the taxes. -/
def taxAdmin : List Function :=
  if f.hasTax && !f.isUnrestricted then
    [f.setTaxPercent, f.setTaxReceiver, f.setDexPair, f.setExcludedFromTax]
  else []

/-- The function to end minting. -/
def disableMinting : List Function :=
  if f.mintable && !f.isUnrestricted then
    [external "disableMinting" [] (f.guard adminRole) [.assign (.name "mintable") (.name "false")]]
  else []

/-! ## The transfer hook -/

/-- A transfer without tax. -/
def transfer (source target amount : Text) : Stmt :=
  .run (.call "super._update" [.name source, .name target, .name amount])

/-- Whether an account is the zero address. -/
def isZeroAddress (account : Text) : Expr :=
  .binary .equal (.name account) (.call "address" [.number 0])

/-- The tax at a rate. -/
def taxAt (rate : Text) : Stmt :=
  .assign (.name "taxAmount")
    (.binary .divided (.group (.binary .times (.name "amount") (.name rate))) (.number 100))

/-- Whether a party is a pair and its tax is positive. -/
def taxed (party rate : Text) : Expr :=
  .binary .both (.entry "isDexPair" (.name party)) (.binary .greater (.name rate) (.number 0))

/-- The part of the hook that takes the tax: a transfer with the zero address or an exempt party
is not taxed; otherwise a purchase is taxed before a sale, the tax goes first and the rest
is left for the recipient. -/
def takeTax : List Stmt := [
  .branch [
    .binary .either (isZeroAddress "from") (isZeroAddress "to"),
    .binary .either (.entry "isExcludedFromTax" (.name "from"))
      (.entry "isExcludedFromTax" (.name "to"))]
    [transfer "from" "to" "amount", .leave] [],
  .gap,
  .declare "uint256" "taxAmount" (.number 0),
  .gap,
  .branch [taxed "from" "buyTaxPercent"] [taxAt "buyTaxPercent"]
    [.branch [taxed "to" "sellTaxPercent"] [taxAt "sellTaxPercent"] []],
  .gap,
  .branch [.binary .greater (.name "taxAmount") (.number 0)]
    [transfer "from" "taxReceiver" "taxAmount", .decrease (.name "amount") (.name "taxAmount")] [],
  .gap]

/-- The body of the hook. -/
def hookBody : List Stmt :=
  (if f.hasTax && f.pausable then [.run (.call "_requireNotPaused" []), .gap] else []) ++
    (if f.hasTax then takeTax else []) ++ [transfer "from" "to" "amount"]

/-- The hook that every transfer goes through. -/
def transferHook : List Function :=
  if f.hasTax || f.pausable then
    [{ name := "_update"
       parameters := [⟨"address", "from"⟩, ⟨"address", "to"⟩, ⟨"uint256", "amount"⟩]
       stacked := true
       qualifiers := [.word "internal", .word "virtual",
         .overriding (if f.pausable then [Base.erc20.name, Base.pausable.name] else [])]
       body := f.hookBody }]
  else []

/-- The query of the interfaces under role based access. -/
def supportsInterface : List Function :=
  if f.hasRoles then
    [{ name := "supportsInterface"
       parameters := [⟨"bytes4", "interfaceId"⟩]
       stacked := false
       qualifiers := [.word "public", .word "view", .word "virtual",
         .overriding [Base.accessControl.name], .returns "bool"]
       body := [.result (.call "super.supportsInterface" [.name "interfaceId"])] }]
  else []

/-! ## The whole contract -/

/-- The functions, in order. -/
def functions : List Function :=
  f.mint ++ f.pause ++ f.taxAdmin ++ f.disableMinting ++ f.transferHook ++ f.supportsInterface

/-- A flag in words. -/
def yesNo (flag : Bool) : Text := if flag then "Yes" else "No"

/-- The access model in words. -/
def accessLabel : Text :=
  match f.access with
  | .known .ownable => "Ownable"
  | .known .roles => "Role-Based"
  | .known .unrestricted => "None"
  | .other label => label

/-- The documentation. -/
def documentation : List Text := [
  "/**",
  " * @title " ++ f.name,
  " * @dev ERC-20 Token with the following features:",
  " * - Symbol: " ++ f.symbol,
  " * - Initial Supply: " ++ f.shownSupply,
  " * - Max Supply: " ++ (if f.hasMaxSupply then f.maxSupply else String.toList "Unlimited"),
  " * - Mintable: " ++ yesNo f.mintable,
  " * - Burnable: " ++ yesNo f.burnable,
  " * - Pausable: " ++ yesNo f.pausable,
  " * - Buy Tax: " ++ f.buyTax ++ "%",
  " * - Sell Tax: " ++ f.sellTax ++ "%",
  " * - Access Control: " ++ f.accessLabel,
  " */"]

/-- The contract. -/
def contract : Contract where
  documentation := f.documentation
  name := f.contractName
  bases := f.bases.map Base.name
  state := f.state
  events := f.events
  constructor := f.constructor
  functions := f.functions

/-- The source unit. -/
def unit : SourceUnit where
  license := "MIT"
  versions := "^0.8.20"
  imports := f.bases.map Base.path
  contract := f.contract

end Features

end Token

end TokenForge

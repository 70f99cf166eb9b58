import TokenForge.Address
import TokenForge.Json.Basic

/-!
# Token configurations

A `Config` is a checked configuration: a token with its supplies, features,
taxes and access model.  `Request` is an unchecked one, whose fields hold
whatever JSON values were given.  Every configuration is a request
(`Config.request`).

`Field` names the fields.  In JSON a field goes by a name with underscores; six
of them have a second name in camel case.
-/

namespace TokenForge

namespace Token

/-! ## Access -/

/-- Who may call the privileged functions of a token. -/
inductive Access where
  | ownable
  | roles
  /-- There are no privileged functions. -/
  | unrestricted
  deriving DecidableEq, Repr

/-- The name of an access model. -/
def Access.name : Access → Text
  | .ownable => "ownable"
  | .roles => "roles"
  | .unrestricted => "none"

/-- The access models, in the order in which messages name them. -/
def Access.all : List Access := [.ownable, .roles, .unrestricted]

/-- The access model of a name. -/
def Access.ofName? (name : Text) : Option Access := Access.all.find? fun a => a.name == name

theorem Access.ofName?_name (a : Access) : Access.ofName? a.name = some a := by
  cases a <;> decide

/-! ## Fields -/

/-- The fields of a configuration. -/
inductive Field where
  | name
  | symbol
  | initialSupply
  | maxSupply
  | mintable
  | burnable
  | pausable
  | buyTax
  | sellTax
  | taxReceiver
  | accessControl
  deriving DecidableEq, Repr

/-- The fields, in order. -/
def Field.all : List Field :=
  [.name, .symbol, .initialSupply, .maxSupply, .mintable, .burnable, .pausable, .buyTax, .sellTax,
    .taxReceiver, .accessControl]

/-- The name of a field. -/
def Field.key : Field → Text
  | .name => "name"
  | .symbol => "symbol"
  | .initialSupply => "initial_supply"
  | .maxSupply => "max_supply"
  | .mintable => "mintable"
  | .burnable => "burnable"
  | .pausable => "pausable"
  | .buyTax => "buy_tax"
  | .sellTax => "sell_tax"
  | .taxReceiver => "tax_receiver"
  | .accessControl => "access_control"

/-- The name of a field in camel case. -/
def Field.camelKey : Field → Text
  | .initialSupply => "initialSupply"
  | .maxSupply => "maxSupply"
  | .buyTax => "buyTax"
  | .sellTax => "sellTax"
  | .taxReceiver => "taxReceiver"
  | .accessControl => "accessControl"
  | field => field.key

/-- The field that goes by a name with underscores. -/
def Field.ofKey? (key : Text) : Option Field := Field.all.find? fun f => f.key == key

/-- The name with underscores of a field that goes by a name in camel case; other names stay. -/
def Field.normalKey (key : Text) : Text :=
  match Field.all.find? fun f => f.camelKey == key with
  | some field => field.key
  | none => key

/-! ## Configurations -/

/-- A checked configuration. -/
structure Config where
  name : Text
  symbol : Text
  /-- The number of tokens at the start. -/
  initialSupply : Nat
  /-- The greatest number of tokens, zero for no limit. -/
  maxSupply : Nat
  mintable : Bool
  burnable : Bool
  pausable : Bool
  /-- The tax on purchases, in percent. -/
  buyTax : Nat
  /-- The tax on sales, in percent. -/
  sellTax : Nat
  /-- The account that taxes go to; the deployer, if there is none. -/
  taxReceiver : Option Address
  access : Access
  deriving DecidableEq, Repr

/-- A configuration as it is asked for: each field with its JSON value. -/
structure Request where
  /-- The value of a field. -/
  value : Field → Json

/-- The value of a field that is not given. -/
def Field.default : Field → Json
  | .name | .symbol => .null
  | .initialSupply | .maxSupply | .buyTax | .sellTax => .int 0
  | .mintable | .pausable => .bool false
  | .burnable => .bool true
  | .taxReceiver => .text []
  | .accessControl => .text Access.ownable.name

/-- The value of a field of a configuration. -/
def Config.value (c : Config) : Field → Json
  | .name => .text c.name
  | .symbol => .text c.symbol
  | .initialSupply => .int c.initialSupply
  | .maxSupply => .int c.maxSupply
  | .mintable => .bool c.mintable
  | .burnable => .bool c.burnable
  | .pausable => .bool c.pausable
  | .buyTax => .int c.buyTax
  | .sellTax => .int c.sellTax
  | .taxReceiver => .text (c.taxReceiver.elim [] Address.checksummed)
  | .accessControl => .text c.access.name

/-- A configuration as a request for itself. -/
def Config.request (c : Config) : Request := ⟨c.value⟩

/-- The fields of a request with their names and values. -/
def Request.members (r : Request) : Assoc Json := Field.all.map fun f => (f.key, r.value f)

end Token

end TokenForge

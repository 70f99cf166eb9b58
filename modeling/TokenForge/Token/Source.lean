import TokenForge.Token.Contract

/-!
# Generated sources

`generate` prints the contract that a request asks for and takes the digest of
the text.  `deploymentRequest` is the request of the deployment form, which has
an owner, can be burned and cannot be paused, whatever else it says.
-/

namespace TokenForge

namespace Token

/-- A generated source. -/
structure Source where
  features : Features
  text : Text
  deriving DecidableEq, Repr

/-- The name of the contract in a source. -/
def Source.contractName (s : Source) : Text := s.features.contractName

/-- The digest of the text. -/
def Source.digest (s : Source) : Text := s.text.digest

/-- The source of a contract with given features. -/
def Features.source (f : Features) : Source := ⟨f, f.unit.print⟩

/-- The source that a request asks for. -/
def generate (r : Request) : Except FeatureFault Source := r.features.map Features.source

/-! ## Requests -/

/-- Why members are no request. -/
inductive RequestFault where
  /-- The name or the symbol is not there, or a member is not known. -/
  | wrongMembers
  /-- A member of the deployment form is not there. -/
  | missing (field : Field)
  deriving DecidableEq, Repr

/-- The request of the members of an object.  Fields that are not there have their defaults. -/
def Request.ofMembers (members : Assoc Json) : Except RequestFault Request :=
  if members.all (fun m => (Field.ofKey? m.1).isSome) && Assoc.has members Field.name.key &&
      Assoc.has members Field.symbol.key then
    .ok ⟨fun field => (Assoc.get? members field.key).getD field.default⟩
  else .error .wrongMembers

/-- The value of a member in camel case, or the default in the place of an empty one. -/
def givenOrDefault (members : Assoc Json) (field : Field) : Json :=
  ((Assoc.get? members field.camelKey).getD .null).orElse field.default

/-- The request of the deployment form, which goes by the names in camel case. -/
def deploymentRequest (members : Assoc Json) : Except RequestFault Request :=
  match Assoc.get? members Field.name.key, Assoc.get? members Field.symbol.key with
  | none, _ => .error (.missing .name)
  | _, none => .error (.missing .symbol)
  | some name, some symbol =>
    .ok ⟨fun
      | .name => name
      | .symbol => symbol
      | .mintable => .bool ((Assoc.get? members Field.mintable.key).getD .null).isGiven
      | .burnable => .bool true
      | .pausable => .bool false
      | .accessControl => .text Access.ownable.name
      | field => givenOrDefault members field⟩

end Token

end TokenForge

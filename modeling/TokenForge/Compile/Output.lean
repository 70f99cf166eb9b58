import TokenForge.Compile.Sources
import TokenForge.Json.Basic

/-!
# The output of a compiler

The output is one JSON object.  Its `errors` are diagnostics, each with a
severity and a message, and its `contracts` are the contracts of each source
unit.  A part that is not there counts as an empty object; a part of the wrong
kind is an `OutputFault`.
-/

namespace TokenForge

namespace Compile

/-- What is wrong with an output. -/
inductive OutputFault where
  /-- A contract has no interface. -/
  | noInterface
  /-- A part that has members is no object. -/
  | notAnObject
  /-- A part has another kind than it is used as. -/
  | wrongKind
  deriving DecidableEq, Repr

/-! ## Parts -/

/-- A member of a part, an empty object if it is not there. -/
def part (v : Json) (key : Text) : Except OutputFault Json :=
  match v.members? with
  | some members => .ok ((Assoc.get? members key).getD (.object []))
  | none => .error .notAnObject

/-- The items of a part that may be empty or not there. -/
def itemsOf (v : Json) : Except OutputFault (List Json) :=
  if v.isEmpty then .ok []
  else
    match v with
    | .array items => .ok items
    | .object _ | .illKeyed _ | .text _ | .illFormed _ => .error .notAnObject
    | _ => .error .wrongKind

/-! ## Diagnostics -/

/-- The message of a diagnostic: the formatted one if it is not empty. -/
def messageOf (members : Assoc Json) : Json :=
  ((Assoc.get? members "formattedMessage").getD .null).orElse
    ((Assoc.get? members "message").getD (.text []))

/-- Whether a diagnostic has a severity. -/
def hasSeverity (members : Assoc Json) (severity : Text) : Bool :=
  match Assoc.get? members "severity" with
  | some (.text s) => s == severity
  | _ => false

/-- The messages of the diagnostics of a severity, in order. -/
def messages (severity : Text) : List Json → Except OutputFault (List Json)
  | [] => .ok []
  | item :: items =>
    match item.members? with
    | some members =>
      (messages severity items).map fun rest =>
        if hasSeverity members severity then messageOf members :: rest else rest
    | none => .error .notAnObject

/-- The texts of messages. -/
def messageTexts : List Json → Except OutputFault (List Text)
  | [] => .ok []
  | v :: vs =>
    match v.text? with
    | some s => (messageTexts vs).map (s :: ·)
    | none => .error .wrongKind

/-! ## Contracts -/

/-- The contract to return: the one that is asked for if it is there, else the first whose name
ends in `Token`, else the first. -/
def pickContract (names : List Text) (wanted : Option Text) : Option Text :=
  let fallback := (names.find? (Text.endsWith "Token")).or names.head?
  match wanted with
  | some name => if name ≠ [] ∧ name ∈ names then some name else fallback
  | none => fallback

/-- The contracts of a source unit. -/
def contractsOf (output : Json) (unit : Text) : Except OutputFault (Assoc Json) :=
  match ((output.get? "contracts").getD (.object [])).members? with
  | some units =>
    match ((Assoc.get? units unit).getD (.object [])).members? with
    | some contracts => .ok contracts
    | none => .error .notAnObject
  | none => .error .wrongKind

/-- The interface of a contract. -/
def interfaceOf (contract : Json) : Except OutputFault Json :=
  match contract.members? with
  | some members =>
    match Assoc.get? members "abi" with
    | some abi => .ok abi
    | none => .error .noInterface
  | none => .error .wrongKind

/-- The code of a contract under a name, in hexadecimal. -/
def codeOf (contract : Json) (code : Text) : Except OutputFault Text := do
  let machine ← part contract "evm"
  let code ← part machine code
  match (← part code "object").text? with
  | some digits => return "0x" ++ digits
  | none => throw .wrongKind

end Compile

end TokenForge

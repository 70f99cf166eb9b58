import Mathlib.Algebra.Ring.Nat
import TokenForge.Proofs.Solidity.Reader

/-!
# Running a function

`Routine.call` runs a function command by command.  Numbers are natural numbers of any size, a
division rounds down, and a division by zero or a difference below zero is rejected, as are calls
of a contract that is paused.  Transfers are recorded in the order in which they are made.

The accounts are of any type with a zero, the address that stands for none.
-/

namespace TokenForge

namespace Solidity

/-- A value. -/
inductive Value (A : Type) where
  | account (a : A)
  | amount (n : Nat)
  | truth (b : Bool)
  deriving DecidableEq, Repr

/-- A transfer that was made. -/
structure Transfer (A : Type) where
  source : A
  target : A
  amount : Nat
  deriving DecidableEq, Repr

/-- What a contract holds. -/
structure Storage (A : Type) where
  /-- The state variables. -/
  stored? : Text → Option (Value A)
  /-- The entries of the mappings. -/
  entry? : Text → A → Option (Value A)
  paused : Bool

/-- Why a function does not go on. -/
inductive Halt where
  | rejected
  /-- Something that the language does not have: an unknown name, or values of other types. -/
  | stuck
  deriving DecidableEq, Repr

variable {A : Type}

/-- The type of a value. -/
def Value.type : Value A → Text
  | .account _ => "address"
  | .amount _ => "uint256"
  | .truth _ => "bool"

/-! ## Values of terms -/

section Terms

variable [DecidableEq A] [Zero A]

/-- The value of an operator that needs both operands. -/
def Operator.value : Operator → Value A → Value A → Except Halt (Value A)
  | .equal, .account a, .account b => .ok (.truth (a = b))
  | .unequal, .account a, .account b => .ok (.truth (a ≠ b))
  | .equal, .amount n, .amount m => .ok (.truth (n = m))
  | .unequal, .amount n, .amount m => .ok (.truth (n ≠ m))
  | .atMost, .amount n, .amount m => .ok (.truth (n ≤ m))
  | .greater, .amount n, .amount m => .ok (.truth (m < n))
  | .plus, .amount n, .amount m => .ok (.amount (n + m))
  | .times, .amount n, .amount m => .ok (.amount (n * m))
  | .divided, .amount n, .amount m => if m = 0 then .error .rejected else .ok (.amount (n / m))
  | .power, .amount n, .amount m => .ok (.amount (n ^ m))
  | _, _, _ => .error .stuck

/-- The truth value among values. -/
def Value.truth? : Value A → Except Halt Bool
  | .truth b => .ok b
  | _ => .error .stuck

/-- A value that may be missing. -/
def Value.found (v : Option (Value A)) : Except Halt (Value A) :=
  match v with
  | some v => .ok v
  | none => .error .stuck

mutual

/-- The value of a term.  Local variables hide state variables, and the second operand of `&&` and
of `||` is left out if the first decides. -/
def Term.value (storage : Storage A) (locals : Assoc (Value A)) : Term → Except Halt (Value A)
  | .name name => Value.found ((Assoc.get? locals name).or (storage.stored? name))
  | .number n => .ok (.amount n)
  | .entry mapping key => do
    match ← key.value storage locals with
    | .account a => Value.found (storage.entry? mapping a)
    | _ => .error .stuck
  | .call function arguments => do
    match ← arguments.values storage locals with
    | [.amount 0] => if function = "address".toList then return .account 0 else .error .stuck
    | _ => .error .stuck
  | .binary .either left right => do
    if ← (← left.value storage locals).truth? then return .truth true
    return .truth (← (← right.value storage locals).truth?)
  | .binary .both left right => do
    if ← (← left.value storage locals).truth? then
      return .truth (← (← right.value storage locals).truth?)
    return .truth false
  | .binary operator left right => do
    operator.value (← left.value storage locals) (← right.value storage locals)

/-- The values of arguments. -/
def Terms.values (storage : Storage A) (locals : Assoc (Value A)) :
    Terms → Except Halt (List (Value A))
  | .nil => .ok []
  | .cons first rest => do return (← first.value storage locals) :: (← rest.values storage locals)

end

end Terms

/-! ## Commands -/

/-- What a function has reached. -/
structure Frame (A : Type) where
  /-- The parameters and the other local variables, oldest first. -/
  locals : Assoc (Value A)
  transfers : List (Transfer A)
  deriving DecidableEq, Repr

/-- How a command ends. -/
inductive Outcome (A : Type) where
  | goesOn (frame : Frame A)
  | returned (transfers : List (Transfer A))
  /-- The call is rejected after these transfers. -/
  | rejected (transfers : List (Transfer A))
  | stuck
  deriving DecidableEq, Repr

/-- A command that needs a value first. -/
def Frame.with {α : Type} (frame : Frame A) (value : Except Halt α) (next : α → Outcome A) :
    Outcome A :=
  match value with
  | .ok v => next v
  | .error .rejected => .rejected frame.transfers
  | .error .stuck => .stuck

/-- Gives a local variable a value of its type. -/
def Frame.assign (frame : Frame A) (name : Text) (v : Value A) : Outcome A :=
  match Assoc.get? frame.locals name with
  | some old =>
    if old.type = v.type then .goesOn { frame with locals := Assoc.put frame.locals name v }
    else .stuck
  | none => .stuck

/-- The variables that are declared in a block are gone behind it. -/
def Outcome.leaveBlock (outer : Frame A) : Outcome A → Outcome A
  | .goesOn frame => .goesOn { frame with locals := frame.locals.take outer.locals.length }
  | outcome => outcome

variable [DecidableEq A] [Zero A]

/-- A call for its effect: the check that the contract is not paused, or a transfer by the base. -/
def Frame.call (storage : Storage A) (frame : Frame A) (function : Text)
    (arguments : List (Value A)) : Outcome A :=
  if function = "_requireNotPaused".toList ∧ arguments = [] then
    if storage.paused then .rejected frame.transfers else .goesOn frame
  else if function = "super._update".toList then
    match arguments with
    | [.account source, .account target, .amount n] =>
      .goesOn { frame with transfers := frame.transfers ++ [⟨source, target, n⟩] }
    | _ => .stuck
  else .stuck

/-- Runs a command. -/
def Command.run (storage : Storage A) : Command → Frame A → Outcome A
  | .skip, frame => .goesOn frame
  | .seq first rest, frame =>
    match first.run storage frame with
    | .goesOn frame => rest.run storage frame
    | outcome => outcome
  | .call function arguments, frame =>
    frame.with (arguments.values storage frame.locals) (frame.call storage function)
  | .declare type name value, frame =>
    frame.with (value.value storage frame.locals) fun v =>
      if v.type = type ∧ Assoc.get? frame.locals name = none then
        .goesOn { frame with locals := Assoc.put frame.locals name v }
      else .stuck
  | .assign name value, frame =>
    frame.with (value.value storage frame.locals) (frame.assign name)
  | .decrease name value, frame =>
    frame.with (value.value storage frame.locals) fun
      | .amount m =>
        match Assoc.get? frame.locals name with
        | some (.amount n) =>
          if m ≤ n then frame.assign name (.amount (n - m)) else .rejected frame.transfers
        | _ => .stuck
      | _ => .stuck
  | .leave, frame => .returned frame.transfers
  | .branch condition body otherwise, frame =>
    frame.with (do (← condition.value storage frame.locals).truth?) fun holds =>
      (if holds then body.run storage frame else otherwise.run storage frame).leaveBlock frame

/-! ## Laws of terms and commands -/

section Laws

variable {storage : Storage A} {locals : Assoc (Value A)}

theorem Term.value_either {left right : Term} {x y : Bool}
    (hx : left.value storage locals = .ok (.truth x))
    (hy : right.value storage locals = .ok (.truth y)) :
    (Term.binary .either left right).value storage locals = .ok (.truth (x || y)) := by
  rw [Term.value, hx, hy]
  cases x <;> rfl

theorem Term.value_both {left right : Term} {x y : Bool}
    (hx : left.value storage locals = .ok (.truth x))
    (hy : right.value storage locals = .ok (.truth y)) :
    (Term.binary .both left right).value storage locals = .ok (.truth (x && y)) := by
  rw [Term.value, hx, hy]
  cases x <;> rfl

variable {frame next : Frame A} {transfers : List (Transfer A)}

theorem Command.run_seq_eq (first rest : Command) (frame : Frame A) :
    (Command.seq first rest).run storage frame =
      match first.run storage frame with
      | .goesOn frame => rest.run storage frame
      | outcome => outcome := rfl

theorem Command.run_seq {first : Command} (h : first.run storage frame = .goesOn next)
    (rest : Command) : (Command.seq first rest).run storage frame = rest.run storage next := by
  rw [run_seq_eq, h]

theorem Command.run_seq_of_returned {first : Command}
    (h : first.run storage frame = .returned transfers) (rest : Command) :
    (Command.seq first rest).run storage frame = .returned transfers := by
  rw [run_seq_eq, h]

theorem Command.run_seq_of_rejected {first : Command}
    (h : first.run storage frame = .rejected transfers) (rest : Command) :
    (Command.seq first rest).run storage frame = .rejected transfers := by
  rw [run_seq_eq, h]

/-- A branch runs the body or the other command, and leaves its block. -/
theorem Command.run_branch {condition : Term} {holds : Bool}
    (h : condition.value storage frame.locals = .ok (.truth holds)) (body otherwise : Command) :
    (Command.branch condition body otherwise).run storage frame =
      ((if holds then body else otherwise).run storage frame).leaveBlock frame := by
  rw [Command.run, h]
  cases holds <;> rfl

end Laws

/-! ## Functions -/

/-- How a call of a function ends. -/
inductive Result (A : Type) where
  | finished (transfers : List (Transfer A))
  | rejected (transfers : List (Transfer A))
  | stuck
  deriving DecidableEq, Repr

/-- How a call ends whose body ends in a way. -/
def Outcome.result : Outcome A → Result A
  | .goesOn frame => .finished frame.transfers
  | .returned transfers => .finished transfers
  | .rejected transfers => .rejected transfers
  | .stuck => .stuck

/-- Runs a function with arguments of the types of its parameters. -/
def Routine.call (storage : Storage A) (routine : Routine) (arguments : List (Value A)) :
    Result A :=
  if arguments.map Value.type = routine.parameters.map Parameter.type then
    let locals := (routine.parameters.map Parameter.name).zip arguments
    (routine.body.run storage ⟨locals, []⟩).result
  else .stuck

end Solidity

end TokenForge

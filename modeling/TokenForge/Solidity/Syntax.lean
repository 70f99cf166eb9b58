import TokenForge.Text.Basic

/-!
# Contract sources

The part of Solidity that token contracts are written in: a source unit with
imports and one contract, whose members are state variables, events, a
constructor and functions.

Text that comes from a configuration and not from the library stands in the
source as it was given.  It has constructors of its own (`Expr.pasted`,
`Expr.quoted`), so that what the library writes itself can be told from it.
-/

namespace TokenForge

namespace Solidity

/-! ## Expressions -/

/-- The operators between two expressions. -/
inductive Operator where
  | equal
  | unequal
  | atMost
  | greater
  | either
  | both
  | plus
  | times
  | divided
  | power
  deriving DecidableEq, Repr

/-- An expression. -/
inductive Expr where
  /-- A variable, a constant, or a member that is reached by points. -/
  | name (name : Text)
  | number (n : Nat)
  /-- A text of the library between double quotes. -/
  | string (s : Text)
  /-- A text of the configuration between double quotes. -/
  | quoted (s : Text)
  /-- A text of the configuration. -/
  | pasted (s : Text)
  | entry (mapping : Text) (key : Expr)
  | call (function : Text) (arguments : List Expr)
  | binary (operator : Operator) (left right : Expr)
  | group (e : Expr)

/-! ## Statements -/

/-- A statement. -/
inductive Stmt where
  /-- An empty line. -/
  | gap
  /-- A call for its effect. -/
  | run (call : Expr)
  | declare (type name : Text) (value : Expr)
  | assign (target value : Expr)
  /-- An assignment of what is left after subtracting. -/
  | decrease (target value : Expr)
  | emit (event : Text) (arguments : List Expr)
  /-- The end of a function. -/
  | leave
  /-- The end of a function with a value. -/
  | result (value : Expr)
  /-- A body that is run if one of the conditions holds, and another if none does. -/
  | branch (conditions : List Expr) (body otherwise : List Stmt)

/-! ## Members -/

/-- A parameter: its type and its name. -/
structure Parameter where
  type : Text
  name : Text
  deriving DecidableEq, Repr

/-- A declaration of state. -/
inductive Declaration where
  /-- An empty line. -/
  | gap
  | variable (type name : Text)
  | mapping (key value name : Text)
  | role (name : Text)
  deriving DecidableEq, Repr

/-- An event. -/
structure Event where
  name : Text
  parameters : List Parameter
  deriving DecidableEq, Repr

/-- What stands between the parameters and the body of a function. -/
inductive Qualifier where
  /-- A visibility or another single word. -/
  | word (word : Text)
  /-- The modifier that lets only the owner in. -/
  | onlyOwner
  /-- The modifier that lets only the holders of a role in. -/
  | onlyRole (role : Text)
  /-- The functions of these bases are replaced; of the only base, if none is named. -/
  | overriding (bases : List Text)
  | returns (type : Text)
  deriving DecidableEq, Repr

/-- A function. -/
structure Function where
  name : Text
  parameters : List Parameter
  /-- Whether each parameter stands on a line of its own. -/
  stacked : Bool
  qualifiers : List Qualifier
  body : List Stmt

/-- A constructor. -/
structure Constructor where
  /-- The constructors of bases that it calls. -/
  bases : List Expr
  body : List Stmt

/-- A contract. -/
structure Contract where
  /-- The lines of its documentation. -/
  documentation : List Text
  name : Text
  bases : List Text
  state : List Declaration
  events : List Event
  constructor : Constructor
  functions : List Function

/-- A source unit. -/
structure SourceUnit where
  license : Text
  /-- The versions of the compiler. -/
  versions : Text
  imports : List Text
  contract : Contract

end Solidity

end TokenForge

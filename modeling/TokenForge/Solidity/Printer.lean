import TokenForge.Solidity.Syntax
import TokenForge.Text.Numeral

/-!
# Printing contract sources

A member is printed as a list of lines without indentation.  `indent` moves lines
to the right, and leaves empty ones empty.  `SourceUnit.print` joins the blocks of a
source unit with empty lines between them.

A line may hold text of a configuration that has line breaks of its own; it still
counts as one line here.
-/

namespace TokenForge

namespace Solidity

/-- The indentation of one level. -/
def step : Text := "    "

/-- Lines moved to the right by a number of levels.  Empty lines stay empty. -/
def indentBy (levels : Nat) (lines : List Text) : List Text :=
  lines.map fun line => if line = [] then [] else (List.replicate levels step).flatten ++ line

/-- Lines moved to the right by one level. -/
def indent (lines : List Text) : List Text := indentBy 1 lines

/-- Lines joined by line feeds. -/
def joinLines (lines : List Text) : Text := List.intercalate ['\n'] lines

/-- Texts with commas between them. -/
def commaList (texts : List Text) : Text := List.intercalate ", " texts

/-! ## Expressions -/

/-- The sign of an operator. -/
def Operator.sign : Operator → Text
  | .equal => "=="
  | .unequal => "!="
  | .atMost => "<="
  | .greater => ">"
  | .either => "||"
  | .both => "&&"
  | .plus => "+"
  | .times => "*"
  | .divided => "/"
  | .power => "**"

mutual

/-- Prints an expression. -/
def Expr.print : Expr → Text
  | .name name => name
  | .number n => Text.ofNat n
  | .string s => "\"" ++ s ++ "\""
  | .quoted s => "\"" ++ s ++ "\""
  | .pasted s => s
  | .entry mapping key => mapping ++ "[" ++ key.print ++ "]"
  | .call function arguments => function ++ "(" ++ commaList (printArguments arguments) ++ ")"
  | .binary operator left right => left.print ++ " " ++ operator.sign ++ " " ++ right.print
  | .group e => "(" ++ e.print ++ ")"

/-- Prints the arguments of a call. -/
def printArguments : List Expr → List Text
  | [] => []
  | e :: es => e.print :: printArguments es

end

/-! ## Statements -/

/-- Lines with a text put in front of the first. -/
def onFirst (text : Text) : List Text → List Text
  | [] => []
  | line :: lines => (text ++ line) :: lines

/-- Lines with a text put behind the last. -/
def onLast (text : Text) : List Text → List Text
  | [] => []
  | [line] => [line ++ text]
  | line :: lines => line :: onLast text lines

/-- Lines with a text put behind each but the last. -/
def onAllButLast (text : Text) : List Text → List Text
  | [] => []
  | [line] => [line]
  | line :: lines => (line ++ text) :: onAllButLast text lines

/-- Lines of which all but the first are indented. -/
def hanging : List Text → List Text
  | [] => []
  | line :: lines => line :: indent lines

/-- The line that closes a block. -/
def closing : Text := ['}']

/-- Prints the conditions of a branch and the opening brace of its body.  Each condition stands
on a line of its own, the further ones indented. -/
def printConditions (conditions : List Expr) : List Text :=
  onFirst "if (" (onLast ") \x7b" (hanging (onAllButLast " ||" (conditions.map Expr.print))))

mutual

/-- Prints a statement. -/
def Stmt.print : Stmt → List Text
  | .gap => [[]]
  | .run call => [call.print ++ ";"]
  | .declare type name value => [type ++ " " ++ name ++ " = " ++ value.print ++ ";"]
  | .assign target value => [target.print ++ " = " ++ value.print ++ ";"]
  | .decrease target value => [target.print ++ " -= " ++ value.print ++ ";"]
  | .emit event arguments => ["emit " ++ (Expr.call event arguments).print ++ ";"]
  | .leave => ["return;"]
  | .result value => ["return " ++ value.print ++ ";"]
  | .branch conditions body otherwise =>
    printConditions conditions ++ indent (printBody body) ++ [closing] ++
      printOtherwise otherwise

/-- Prints statements. -/
def printBody : List Stmt → List Text
  | [] => []
  | s :: ss => s.print ++ printBody ss

/-- Prints what is done if no condition of a branch holds. -/
def printOtherwise : List Stmt → List Text
  | [] => []
  | [s] => onFirst "else " s.print
  | s :: ss => "else \x7b" :: (indent (s.print ++ printBody ss) ++ [closing])

end

/-! ## Members -/

/-- Prints a parameter. -/
def Parameter.print (p : Parameter) : Text := p.type ++ " " ++ p.name

/-- Prints a declaration of state. -/
def Declaration.print : Declaration → Text
  | .gap => []
  | .variable type name => type ++ " public " ++ name ++ ";"
  | .mapping key value name => "mapping(" ++ key ++ " => " ++ value ++ ") public " ++ name ++ ";"
  | .role name => "bytes32 public constant " ++ name ++ " = keccak256(\"" ++ name ++ "\");"

/-- Prints an event. -/
def Event.print (e : Event) : Text :=
  "event " ++ e.name ++ "(" ++ commaList (e.parameters.map Parameter.print) ++ ");"

/-- Prints a qualifier. -/
def Qualifier.print : Qualifier → Text
  | .word w => w
  | .onlyOwner => "onlyOwner"
  | .onlyRole role => "onlyRole(" ++ role ++ ")"
  | .overriding [] => "override"
  | .overriding bases => "override(" ++ commaList bases ++ ")"
  | .returns type => "returns (" ++ type ++ ")"

/-- Prints the opening lines of a function. -/
def Function.printHead (f : Function) : List Text :=
  let start : Text := "function " ++ f.name ++ "("
  let parameters := f.parameters.map Parameter.print
  let finish : Text := ")" ++ f.qualifiers.flatMap (fun q => ' ' :: q.print) ++ " \x7b"
  if f.stacked then start :: (indent (onAllButLast "," parameters) ++ [finish])
  else [start ++ commaList parameters ++ finish]

/-- Prints a function. -/
def Function.print (f : Function) : List Text :=
  f.printHead ++ indent (printBody f.body) ++ [closing]

/-- Prints a constructor. -/
def Constructor.print (c : Constructor) : List Text :=
  ("constructor() " ++ List.intercalate [' '] (c.bases.map Expr.print) ++ " \x7b") ::
    (indent (printBody c.body) ++ [closing])

/-! ## Source units -/

/-- The members of a contract, each as its lines.  Members without lines are left out. -/
def Contract.members (c : Contract) : List (List Text) :=
  ([c.state.map Declaration.print, c.events.map Event.print, c.constructor.print] ++
    c.functions.map Function.print).filter (· ≠ [])

/-- Prints the body of a contract, with empty lines between its members. -/
def Contract.printBody (c : Contract) : Text :=
  List.intercalate "\n\n" (c.members.map fun lines => joinLines (indent lines))

/-- Prints a contract. -/
def Contract.print (c : Contract) : Text :=
  joinLines c.documentation ++ "\n" ++ "contract " ++ c.name ++ " is " ++ commaList c.bases ++
    " \x7b\n" ++ c.printBody ++ "\n\x7d"

/-- Prints the license and the versions of the compiler. -/
def SourceUnit.printPreamble (u : SourceUnit) : Text :=
  "// SPDX-License-Identifier: " ++ u.license ++ "\n" ++ "pragma solidity " ++ u.versions ++ ";"

/-- Prints the imports. -/
def SourceUnit.printImports (u : SourceUnit) : Text :=
  joinLines (u.imports.map fun path => "import \"" ++ path ++ "\";")

/-- Prints a source unit. -/
def SourceUnit.print (u : SourceUnit) : Text :=
  List.intercalate "\n\n" [u.printPreamble, u.printImports, u.contract.print] ++ "\n"

end Solidity

end TokenForge

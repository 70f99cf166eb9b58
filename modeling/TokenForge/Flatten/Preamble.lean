import TokenForge.Text.Blank
import TokenForge.Text.Scan
import TokenForge.Text.Word

/-!
# Preamble lines

Lines that a source may hold once only.

* A license line is a comment `// SPDX-License-Identifier:` to the end of its line.
* A version pragma is `pragma solidity …;` with anything but a semicolon in
  between, line breaks included.
* A feature pragma turns one of the `Feature`s on, as `pragma abicoder …;` or
  `pragma experimental "ABIEncoderV2";`, on one line after the word `pragma`.

Each starts at the beginning of a line.  License lines and version pragmas belong
to the outermost source and are dropped from a file that is inlined
(`dropPreamble`).  Of the feature pragmas the first of each feature is kept; that
takes a whole flattened source into account and is done there.
-/

namespace TokenForge

namespace Preamble

/-! ## Line ends -/

/-- What follows the spaces, tabs, at most one carriage return and at most one line feed after
a statement. -/
def afterStatement (s : Text) : Text :=
  let s := match Text.dropSpaces s with
    | '\r' :: s => s
    | s => s
  match s with
  | '\n' :: s => s
  | s => s

/-! ## License lines -/

/-- Recognises a license line with its line feed. -/
def license : Recogniser Unit := fun before s => do
  if atLineStart before then
    let s ← Text.after? "//" (Text.dropSpaces s)
    let s ← Text.after? "SPDX-License-Identifier:" (Text.dropBlanks s)
    match s.dropWhile (· != '\n') with
    | [] => return ((), [])
    | _ :: rest => return ((), rest)
  else none

/-! ## Version pragmas -/

/-- Recognises a version pragma.  Between `solidity` and the semicolon there is a blank and at
least one more character. -/
def versionPragma : Recogniser Unit := fun before s => do
  if atLineStart before then
    let s ← Text.after? "pragma" (Text.dropSpaces s)
    let s ← Text.dropBlanks1? s
    let s ← Text.after? "solidity" s
    match s.takeWhile (· != ';'), s.dropWhile (· != ';') with
    | blank :: _ :: _, _ :: rest => if isBlank blank then return ((), afterStatement rest) else none
    | _, _ => none
  else none

/-! ## Feature pragmas -/

/-- A feature that a pragma turns on. -/
inductive Feature where
  /-- The version of the coder for calls. -/
  | abicoder
  /-- The second version of the coder, as an experiment. -/
  | abiEncoderV2
  /-- The model checker. -/
  | smtChecker
  deriving DecidableEq, Repr

/-- The features. -/
def Feature.all : List Feature := [.abicoder, .abiEncoderV2, .smtChecker]

/-- The name of a feature in a pragma. -/
def Feature.name : Feature → Text
  | .abicoder => "abicoder"
  | .abiEncoderV2 => "ABIEncoderV2"
  | .smtChecker => "SMTChecker"

/-- What follows `experimental` and blanks, if a pragma has the word. -/
def afterExperimental? (s : Text) : Option Text := do
  let s ← Text.after? "experimental" s
  Text.dropBlanks1? s

/-- The text without a quote at its beginning. -/
def dropQuote (s : Text) : Text :=
  match s with
  | '"' :: s => s
  | '\'' :: s => s
  | s => s

/-- A feature whose name is the word at the beginning of a text, and what follows it. -/
def takeFeature? (s : Text) : Option (Feature × Text) :=
  Feature.all.findSome? fun feature =>
    match Text.after? feature.name s with
    | some rest => if Text.atWordEnd rest then some (feature, rest) else none
    | none => none

/-- Recognises a feature pragma. -/
def featurePragma : Recogniser Feature := fun before s => do
  if atLineStart before then
    let s ← Text.after? "pragma" (Text.dropSpaces s)
    let s ← Text.dropBlanks1? s
    let (feature, s) ← takeFeature? (dropQuote ((afterExperimental? s).getD s))
    match s.dropWhile fun c => c != ';' && c != '\n' with
    | ';' :: rest => return (feature, afterStatement rest)
    | _ => none
  else none

/-! ## Dropping -/

/-- A text without its license lines and then without its version pragmas. -/
def dropPreamble (s : Text) : Text := Text.remove versionPragma (Text.remove license s)

end Preamble

end TokenForge

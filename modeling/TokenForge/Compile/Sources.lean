import TokenForge.Assoc
import TokenForge.Import.Directive
import TokenForge.Outcome

/-!
# The sources of a compilation

A compiler is given every source unit that the entry unit reaches through
imports, keyed by unit name.  The search keeps the units whose imports are still
to be followed on a stack.  A unit that is taken off it has its imports looked
up in order, and each new one is added to the sources and put on the stack.

The search ends without sources when an import has no file.  It follows at most
`limit` units, so that it ends also when the look-up knows endlessly many files;
over finitely many files their number is limit enough.
-/

namespace TokenForge

namespace Compile

/-- A search for sources under way. -/
structure Search where
  /-- The units found, in order. -/
  sources : Assoc Text
  /-- The units whose imports are to be followed, with their texts, the next one first. -/
  pending : List (Text × Text)
  /-- The paths that were looked up, oldest first. -/
  asked : List Text
  deriving DecidableEq, Repr

/-- Why a search ends without sources. -/
inductive SearchFault where
  | missing (path : Text)
  | endless
  deriving DecidableEq, Repr

/-- A step of a search, whose changes outlast a fault. -/
abbrev SearchRun := EStateM SearchFault Search

/-- The name of the entry unit. -/
def entryUnit : Text := "Token.sol"

/-- The search before any step. -/
def Search.start (entry source : Text) : Search := ⟨[(entry, source)], [(entry, source)], []⟩

/-- Follows an import: a unit that is not known yet is looked up. -/
def followPath (lookup : Text → Option Text) (path : Text) : SearchRun PUnit := do
  if Assoc.has (← get).sources path then return
  modify fun search => { search with asked := search.asked ++ [path] }
  match lookup path with
  | none => throw (.missing path)
  | some content =>
    modify fun search =>
      { search with
        sources := Assoc.put search.sources path content
        pending := (path, content) :: search.pending }

/-- Follows imports in order. -/
def followPaths (lookup : Text → Option Text) : List Text → SearchRun PUnit
  | [] => pure ⟨⟩
  | path :: paths => do
    followPath lookup path
    followPaths lookup paths

/-- Takes units off the stack until there are none. -/
def followUnits (lookup : Text → Option Text) : Nat → SearchRun PUnit
  | 0 => throw .endless
  | limit + 1 => do
    match (← get).pending with
    | [] => return
    | (unit, content) :: pending =>
      modify fun search => { search with pending }
      followPaths lookup (Import.paths content (some unit))
      followUnits lookup limit

/-- What a search answers. -/
structure Sources where
  /-- The units, or the fault that ended the search. -/
  answer : Except SearchFault (Assoc Text)
  /-- The paths that were looked up, oldest first. -/
  asked : List Text

/-- The units that an entry unit reaches, itself included. -/
def collectSources (lookup : Text → Option Text) (limit : Nat) (entry source : Text) : Sources :=
  let outcome := runOn (followUnits lookup (limit + 2)) (Search.start entry source)
  ⟨outcome.answer.map fun _ => outcome.state.sources, outcome.state.asked⟩

end Compile

end TokenForge

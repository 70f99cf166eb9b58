import TokenForge.Flatten.BlankLines
import TokenForge.Flatten.Preamble
import TokenForge.Import.Directive
import TokenForge.Outcome
import TokenForge.Text.Numeral

/-!
# Flattening

A *flattening* puts the text of every imported file in the place of the directive
that imports it, depth first, so that the result needs no other file.

* A file is inlined at the first directive that reaches it.  A later directive
  for the same path is removed, and so is one inside the file itself or in a
  file that it imports: a cycle ends there.
* An inlined file loses its license lines and version pragmas and is followed by
  a line feed.
* A path without a file is replaced by a comment that names it.
* Files may nest `limit` levels deep; the outermost source is at level 0.

`flattenSource` then keeps the first pragma of each feature and collapses runs
of blank lines.

A `Session` remembers which paths were asked for and what became of them.  A run
that fails keeps what it did to the session, which is why a run is an `EStateM`.
-/

namespace TokenForge

namespace Flatten

/-- What happens during a flattening. -/
inductive Event where
  /-- A path was looked up. -/
  | asked (path : Text)
  /-- A directive was removed because its path had been asked for before. -/
  | duplicate (path : Text)
  /-- A path that was looked up has no file. -/
  | notFound (path : Text)
  /-- A pragma was removed because its feature had been turned on before. -/
  | repeated (feature : Preamble.Feature)
  deriving DecidableEq, Repr

/-- What a flattening remembers. -/
structure Session where
  /-- The paths whose directives were replaced, oldest first. -/
  seen : List Text
  /-- The paths that have no file, oldest first. -/
  unresolved : List Text
  /-- The features that were turned on, oldest first. -/
  features : List Preamble.Feature
  /-- What happened, latest first. -/
  history : List Event
  deriving DecidableEq, Repr

/-- The session before any flattening. -/
def Session.empty : Session := ⟨[], [], [], []⟩

/-- What happened, oldest first. -/
def Session.events (session : Session) : List Event := session.history.reverse

/-- The paths that were looked up, oldest first. -/
def Session.calls (session : Session) : List Text :=
  session.events.filterMap fun
    | .asked path => some path
    | _ => none

/-- Why a source is not flattened. -/
inductive Fault where
  | tooDeep (limit : Int)
  deriving DecidableEq, Repr

/-- A fault in words. -/
def Fault.message : Fault → Text
  | .tooDeep limit => "Import recursion too deep (more than " ++ Text.ofInt limit ++ " levels)"

/-- A computation on a session, whose changes to it outlast a fault. -/
abbrev Run := EStateM Fault Session

/-- Looks up the text of an imported path. -/
abbrev Lookup := Text → Option Text

/-! ## Events -/

/-- Notes an event. -/
def note (event : Event) : Run Unit :=
  modify fun session => { session with history := event :: session.history }

/-- Notes that a path is looked up for the first time. -/
def noteAsked (path : Text) : Run Unit :=
  modify fun session =>
    { session with seen := session.seen ++ [path], history := .asked path :: session.history }

/-- Notes that a path has no file. -/
def noteNotFound (path : Text) : Run Unit :=
  modify fun session =>
    { session with
      unresolved := session.unresolved ++ [path]
      history := .notFound path :: session.history }

/-! ## Inlining -/

/-- The comment in the place of a directive whose path has no file. -/
def missingComment (path : Text) : Text := "// Import not found: " ++ path ++ "\n"

/-- The text in the place of a directive for a path.  `flattenFile` flattens the text of the
file. -/
def inlineWith (lookup : Lookup) (flattenFile : Text → Run Text) (path : Text) : Run Text := do
  if path ∈ (← get).seen then
    note (.duplicate path)
    return []
  noteAsked path
  match lookup path with
  | none =>
    noteNotFound path
    return missingComment path
  | some content =>
    let flat ← flattenFile content
    return Preamble.dropPreamble flat ++ "\n"

/-- The text in the place of a piece of a source: characters stay, directives are replaced. -/
def inlinePiece (inlinePath : Text → Run Text) (importer : Option Text) :
    Piece Import.Directive → Run Text
  | .char c => pure [c]
  | .hit directive _ => inlinePath (Import.resolve directive.path importer)

/-- The text of pieces of a source with the directives replaced, from left to right. -/
def inlinePieces (inlinePath : Text → Run Text) (importer : Option Text) :
    List (Piece Import.Directive) → Run Text
  | [] => pure []
  | piece :: pieces => do
    let first ← inlinePiece inlinePath importer piece
    let rest ← inlinePieces inlinePath importer pieces
    return first ++ rest

/-- A source with every directive replaced.  The number counts the levels that are left, this one
included; `importer` is the path of the source itself. -/
def flattenAt (lookup : Lookup) (limit : Int) : Nat → Text → Option Text → Run Text
  | 0, _, _ => throw (.tooDeep limit)
  | levels + 1, source, importer =>
    let flattenFile (path content : Text) := flattenAt lookup limit levels content (some path)
    inlinePieces (fun path => inlineWith lookup (flattenFile path) path) importer
      (Text.pieces Import.directive source)

/-- The levels from a depth down to the limit. -/
def levelsFrom (limit depth : Int) : Nat := (limit - depth + 1).toNat

/-- A source at a depth with every directive replaced. -/
def flatten (lookup : Lookup) (limit : Int) (source : Text) (depth : Int)
    (importer : Option Text) : Run Text :=
  flattenAt lookup limit (levelsFrom limit depth) source importer

/-- The text in the place of a directive for a path in a source at a depth. -/
def inlinePath (lookup : Lookup) (limit : Int) (path : Text) (depth : Int) : Run Text :=
  inlineWith lookup (fun content => flatten lookup limit content (depth + 1) (some path)) path

/-! ## Feature pragmas -/

/-- The text of a piece of a flattened source, without the pragma of a feature that is already
turned on. -/
def keepFirstPragma : Piece Preamble.Feature → Run Text
  | .char c => pure [c]
  | .hit feature covered => do
    if feature ∈ (← get).features then
      note (.repeated feature)
      return []
    modify fun session => { session with features := session.features ++ [feature] }
    return covered

/-- The text of pieces of a flattened source with the first pragma of each feature. -/
def keepFirstPragmas : List (Piece Preamble.Feature) → Run Text
  | [] => pure []
  | piece :: pieces => do
    let first ← keepFirstPragma piece
    let rest ← keepFirstPragmas pieces
    return first ++ rest

/-! ## Whole sources -/

/-- A source that needs no other file. -/
def flattenSource (lookup : Lookup) (limit : Int) (source : Text) : Run Text := do
  let flat ← flatten lookup limit source 0 none
  let flat ← keepFirstPragmas (Text.pieces Preamble.featurePragma flat)
  return collapseBlankLines flat

/-- The number of levels that files may nest when nothing else is asked for. -/
def defaultLimit : Int := 20

end Flatten

end TokenForge

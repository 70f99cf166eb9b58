import TokenForge.Text.Blank
import TokenForge.Version.Basic

/-!
# Version ranges

A range is a choice between groups, separated by `||`, and a group is a list of
comparators that all have to hold.  A comparator is an operator and a version of
which the last numbers may be missing or wild (`x`, `X` or `*`).  Every
comparator stands for one or two bounds.

* `^1.2.3`: from 1.2.3 to below the next version that differs in the first
  number that is not zero.
* `~1.2.3`: from 1.2.3 to below the next minor version.
* `1.2` and `=1.2`: all versions 1.2.
* `<`, `<=`, `>`, `>=`: as written; a missing number stands for all its values.
* `low - high`: from `low` to `high`, both included.

A prerelease of a version is not accepted by a bound on another version.  A
group with a bound on a prerelease is read twice: once for the prereleases of
that version, and once for the versions without, where its bounds lose their
prerelease.
-/

namespace TokenForge

namespace Version

/-! ## Bounds -/

/-- How a version compares with the target of a bound. -/
inductive Relation where
  /-- Equal in precedence, and in the build where the target has one. -/
  | equal
  /-- After the target. -/
  | above
  /-- Not before the target. -/
  | from
  /-- Before the target. -/
  | below
  /-- Not after the target. -/
  | upTo
  deriving DecidableEq, Repr

/-- A bound on versions. -/
structure Bound where
  relation : Relation
  target : Version
  /-- Whether prereleases of other versions than the target's are accepted too. -/
  anyPrerelease : Bool
  deriving DecidableEq, Repr

/-- Whether a version keeps a bound. -/
def Bound.accepts (b : Bound) (v : Version) : Bool :=
  if v.prerelease ≠ [] ∧ !b.anyPrerelease ∧ b.target.core ≠ v.core then false
  else
    match b.relation with
    | .equal =>
      if b.target.build = [] then decide (v.withoutBuild = b.target)
      else decide (v.withoutBuild = b.target.withoutBuild) && decide (v.build = b.target.build)
    | .above => b.target.before v
    | .from => b.target.atMost v
    | .below => v.before b.target
    | .upTo => v.atMost b.target

/-- A range: groups of bounds, of which one has to be kept as a whole. -/
abbrev Range := List (List Bound)

/-- Whether a version lies in a range. -/
def Range.accepts (r : Range) (v : Version) : Bool := r.any fun group => group.all (·.accepts v)

/-- A bound that accepts no prerelease of another version. -/
def bound (relation : Relation) (target : Version) : Bound := ⟨relation, target, false⟩

/-! ## Comparators -/

/-- Why a range is not read. -/
inductive Range.Fault where
  | malformed
  /-- A side of a hyphen range is no comparator. -/
  | malformedSide
  deriving DecidableEq, Repr

/-- The operators of comparators. -/
inductive Operator where
  /-- `=` or none. -/
  | exact
  /-- `^` -/
  | caret
  /-- `~` -/
  | tilde
  /-- `>` -/
  | greater
  /-- `>=` -/
  | atLeast
  /-- `<` -/
  | less
  /-- `<=` -/
  | atMost
  deriving DecidableEq, Repr

/-- A comparator as it is written. -/
structure Comparator where
  operator : Operator
  major : Option Nat
  minor : Option Nat
  patch : Option Nat
  /-- The prerelease, as written. -/
  prerelease : Text
  /-- The build, as written. -/
  build : Text
  deriving DecidableEq, Repr

/-- The operator at the beginning of a text. -/
def takeOperator (s : Text) : Operator × Text :=
  match s with
  | '<' :: '=' :: s => (.atMost, s)
  | '<' :: s => (.less, s)
  | '>' :: '=' :: s => (.atLeast, s)
  | '>' :: s => (.greater, s)
  | '=' :: s => (.exact, s)
  | '^' :: s => (.caret, s)
  | '~' :: s => (.tilde, s)
  | s => (.exact, s)

/-- A number, or none for a wild card, at the beginning of a text. -/
def takeField? (s : Text) : Option (Option Text × Text) :=
  match s with
  | [] => none
  | c :: rest =>
    if c = 'x' ∨ c = 'X' ∨ c = '*' then some (none, rest)
    else if c = '0' then some (some ['0'], rest)
    else if isAsciiDigit c then some (some (s.takeWhile isAsciiDigit), s.dropWhile isAsciiDigit)
    else none

/-- A number after a point at the beginning of a text; none, if there is no point. -/
def takeNextField? (s : Text) : Option (Option Text × Text) :=
  match s with
  | '.' :: s => takeField? s
  | s => some (none, s)

/-- The text after a mark, if the mark is there. -/
def takeTail (mark : Char) (s : Text) : Text × Text :=
  match s with
  | c :: s' => if c = mark then (s'.takeWhile isPartChar, s'.dropWhile isPartChar) else ([], s)
  | [] => ([], [])

/-- The fields of a comparator in the form in which they are written: operator, numbers,
prerelease and build. -/
def readFields? (s : Text) : Option (Operator × List (Option Text) × Text × Text) := do
  let s := match s with
    | 'v' :: s => s
    | s => s
  let (operator, s) := takeOperator s
  let (major, s) ← takeField? s
  let (minor, s) ← takeNextField? s
  let (patch, s) ← takeNextField? s
  let (prerelease, s) := takeTail '-' s
  let (build, s) := takeTail '+' s
  if s = [] ∨ s = ['\n'] then return (operator, [major, minor, patch], prerelease, build)
  else none

/-- The number of a field.  A field without digits has none. -/
def fieldValue : Option Text → Except Range.Fault (Option Nat)
  | none => .ok none
  | some digits =>
    match Text.toNat? digits with
    | some n => .ok (some n)
    | none => .error .malformed

/-- The identifiers of a prerelease or build. -/
def identifiers (part : Text) : List Text := if part = [] then [] else Text.splitOn '.' part

/-- The comparator of its fields.  A build counts only after `=` or no operator. -/
def comparator (operator : Operator) (major minor patch : Option Text) (prerelease build : Text) :
    Except Range.Fault Comparator := do
  let major ← fieldValue major
  let minor ← fieldValue minor
  let patch ← fieldValue patch
  return ⟨operator, major, minor, patch, prerelease, if operator = .exact then build else []⟩

/-- The version that a comparator compares with.  Missing numbers are zero. -/
def Comparator.target (c : Comparator) : Version :=
  match c.major, c.minor, c.patch with
  | some major, some minor, some patch =>
    ⟨major, minor, patch, identifiers c.prerelease, identifiers c.build⟩
  | some major, some minor, none => release major minor 0
  | some major, none, _ => release major 0 0
  | none, _, _ => release 0 0 0

/-- Whether no number is missing. -/
def Comparator.isComplete (c : Comparator) : Bool :=
  c.major.isSome && c.minor.isSome && c.patch.isSome

/-- Whether a comparator is well formed: its identifiers are, only a complete version has any,
and a version without numbers is not compared with by another operator than `=` and `>=`. -/
def Comparator.isValid (c : Comparator) : Bool :=
  (c.isComplete || (c.prerelease.isEmpty && c.build.isEmpty)) &&
    (c.major.isSome || c.operator == .exact || c.operator == .atLeast) &&
    (!c.isComplete || (validPrerelease (identifiers c.prerelease) &&
      validBuild (identifiers c.build)))

/-- The bounds that a comparator stands for. -/
def Comparator.bounds (c : Comparator) : List Bound :=
  let t := c.target
  let span (low high : Version) : List Bound := [bound .from low, bound .below high]
  match c.operator with
  | .caret =>
    let u := t.core
    if t.major ≠ 0 then span t u.nextMajor
    else if t.minor ≠ 0 then span t u.nextMinor
    else if c.minor = none then span t u.nextMajor
    else if c.patch = none then span t u.nextMinor
    else span t u.nextPatch
  | .tilde => if c.minor = none then span t t.nextMajor else span t t.nextMinor
  | .exact =>
    if c.major = none then [bound .from t]
    else if c.minor = none then span t t.nextMajor
    else if c.patch = none then span t t.nextMinor
    else [bound .equal t]
  | .greater =>
    if c.minor = none then [bound .from t.nextMajor]
    else if c.patch = none then [bound .from t.nextMinor]
    else [bound .above t]
  | .atLeast => [bound .from t]
  | .less => [bound .below t]
  | .atMost =>
    if c.minor = none then [bound .below t.nextMajor]
    else if c.patch = none then [bound .below t.nextMinor]
    else [bound .upTo t]

/-- Reads a comparator.  `fault` is the fault of a text that is none at all. -/
def readComparator (fault : Range.Fault) (s : Text) : Except Range.Fault (List Bound) :=
  match readFields? s with
  | some (operator, [major, minor, patch], prerelease, build) => do
    let c ← comparator operator major minor patch prerelease build
    if c.isValid then .ok c.bounds else .error .malformed
  | _ => .error fault

/-! ## Groups -/

/-- The bounds of a group for the prereleases of its targets. -/
def prereleaseBounds (group : List Bound) : List Bound :=
  group.flatMap fun b =>
    if b.target.prerelease = [] then []
    else
      match b.relation with
      | .above | .from => [⟨.below, b.target.nextPatch, true⟩, b]
      | .below | .upTo => [⟨.from, release b.target.major b.target.minor 0, true⟩, b]
      | .equal => [b]

/-- The bounds of a group for versions without prerelease. -/
def releaseBounds (group : List Bound) : List Bound :=
  group.map fun b => if b.target.prerelease = [] then b else bound b.relation b.target.core

/-- The alternatives that a group of bounds stands for. -/
def alternatives (group : List Bound) : Range :=
  match prereleaseBounds group with
  | [] => [releaseBounds group]
  | bounds => [bounds, releaseBounds group]

/-- Reads a group. -/
def readGroup (s : Text) : Except Range.Fault Range := do
  let s := match Text.strip s with
    | [] => ">=0.0.0"
    | s => s
  match Text.splitOnText " - " 0 s with
  | [s] =>
    let bounds ← (Text.splitOn ' ' s).mapM (readComparator .malformed)
    return alternatives bounds.flatten
  | [low, high] =>
    let low ← readComparator .malformedSide (">=" ++ low)
    let high ← readComparator .malformedSide ("<=" ++ high)
    return alternatives (low ++ high)
  | _ => .error .malformed

/-- Reads a range. -/
def readRange (s : Text) : Except Range.Fault Range := do
  let groups ← (Text.splitOnText "||" 0 s).mapM readGroup
  return groups.flatten

end Version

end TokenForge

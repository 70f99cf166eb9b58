import TokenForge.Text.Numeral
import TokenForge.Text.Word

/-!
# Versions

Semantic versions: three numbers, prerelease identifiers and build identifiers.
`Version.read?` reads the written form and `Version.render` writes it.

`Version.order` is the precedence of semantic versioning.  The numbers are
compared first.  A prerelease comes before its release; prerelease identifiers
are compared one by one, where numbers come before words and in numeric order,
words are ordered by their characters, and of two lists of which one continues
the other the shorter comes first.  Build identifiers do not count.

The numbers of a version and its identifiers that are numbers have as many digits
as a numeral may have, and no more.
-/

namespace TokenForge

/-- A semantic version. -/
structure Version where
  major : Nat
  minor : Nat
  patch : Nat
  prerelease : List Text
  build : List Text
  deriving DecidableEq, Repr

namespace Version

/-- The release of three numbers. -/
def release (major minor patch : Nat) : Version := ⟨major, minor, patch, [], []⟩

/-- A version without prerelease and build. -/
def core (v : Version) : Version := release v.major v.minor v.patch

/-- A version without build. -/
def withoutBuild (v : Version) : Version := { v with build := [] }

/-- The first release with a greater major number. -/
def nextMajor (v : Version) : Version := release (v.major + 1) 0 0

/-- The first release with a greater minor number, or the release of a prerelease whose patch
number is zero. -/
def nextMinor (v : Version) : Version :=
  if v.prerelease ≠ [] ∧ v.patch = 0 then v.core else release v.major (v.minor + 1) 0

/-- The first release with a greater patch number. -/
def nextPatch (v : Version) : Version := release v.major v.minor (v.patch + 1)

/-! ## Order -/

/-- Whether an identifier consists of ASCII digits. -/
def isNumeric (identifier : Text) : Bool :=
  !identifier.isEmpty && identifier.all isAsciiDigit

/-- Identifiers in their order. -/
def compareIdentifier (a b : Text) : Ordering :=
  match isNumeric a, isNumeric b with
  | true, true => compare (Text.ofAsciiDigits a) (Text.ofAsciiDigits b)
  | true, false => .lt
  | false, true => .gt
  | false, false => Text.order a b

/-- Lists in the order of their first difference, a list before its extensions. -/
def compareLists {α : Type} (order : α → α → Ordering) : List α → List α → Ordering
  | [], [] => .eq
  | [], _ :: _ => .lt
  | _ :: _, [] => .gt
  | a :: as, b :: bs => (order a b).then (compareLists order as bs)

/-- Prereleases in their order, where none comes last. -/
def comparePrerelease : List Text → List Text → Ordering
  | [], [] => .eq
  | [], _ :: _ => .gt
  | _ :: _, [] => .lt
  | as, bs => compareLists compareIdentifier as bs

/-- The precedence of versions. -/
def order (v w : Version) : Ordering :=
  (compare v.major w.major).then <| (compare v.minor w.minor).then <|
    (compare v.patch w.patch).then (comparePrerelease v.prerelease w.prerelease)

/-- Whether a version does not come after another. -/
def atMost (v w : Version) : Bool := v.order w != .gt

/-- Whether a version comes before another. -/
def before (v w : Version) : Bool := v.order w == .lt

/-! ## Reading and writing -/

/-- Whether a character may stand in an identifier or between two. -/
def isPartChar (c : Char) : Bool := isAsciiAlphanumeric c || c == '.' || c == '-'

/-- Whether an identifier is a number with a superfluous zero in front. -/
def hasLeadingZero (identifier : Text) : Bool :=
  identifier.head? == some '0' && decide (1 < identifier.length) && identifier.all isDecimalDigit

/-- Whether an identifier is a number with more digits than a numeral may have. -/
def isTooLong (identifier : Text) : Bool :=
  isNumeric identifier && decide (numeralLimit < identifier.length)

/-- Whether prerelease identifiers are well formed. -/
def validPrerelease (identifiers : List Text) : Bool :=
  identifiers.all fun i => !i.isEmpty && !hasLeadingZero i && !isTooLong i

/-- Whether build identifiers are well formed. -/
def validBuild (identifiers : List Text) : Bool :=
  identifiers.all fun i => !i.isEmpty && !isTooLong i

/-- A number of a version at the beginning of a text, without superfluous zeros. -/
def takeNumber? (s : Text) : Option (Nat × Text) :=
  let digits := s.takeWhile isDecimalDigit
  if hasLeadingZero digits then none
  else (Text.toNat? digits).map fun n => (n, s.dropWhile isDecimalDigit)

/-- The identifiers after a mark at the beginning of a text, if the mark is there. -/
def takePart? (mark : Char) (s : Text) : Option (List Text × Text) :=
  match s with
  | c :: s' =>
    if c = mark then
      match s'.takeWhile isPartChar with
      | [] => none
      | part => some (Text.splitOn '.' part, s'.dropWhile isPartChar)
    else some ([], s)
  | [] => some ([], [])

/-- Reads a written version.  A line break may follow it. -/
def read? (s : Text) : Option Version := do
  let (major, s) ← takeNumber? s
  let s ← Text.after? "." s
  let (minor, s) ← takeNumber? s
  let s ← Text.after? "." s
  let (patch, s) ← takeNumber? s
  let (prerelease, s) ← takePart? '-' s
  let (build, s) ← takePart? '+' s
  if (s = [] ∨ s = ['\n']) ∧ validPrerelease prerelease ∧ validBuild build then
    return ⟨major, minor, patch, prerelease, build⟩
  else none

/-- The written form of a version. -/
def render (v : Version) : Text :=
  Text.ofNat v.major ++ "." ++ Text.ofNat v.minor ++ "." ++ Text.ofNat v.patch ++
    (if v.prerelease = [] then [] else '-' :: List.intercalate ['.'] v.prerelease) ++
    (if v.build = [] then [] else '+' :: List.intercalate ['.'] v.build)

end Version

end TokenForge

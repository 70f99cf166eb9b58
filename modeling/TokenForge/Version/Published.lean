import TokenForge.Text.Blank
import TokenForge.Version.Basic

/-!
# Published versions

A listing of compilers names each by a *published version*: an epoch, release
numbers of any count, and after them, each if it is there, a prerelease (alpha,
beta or candidate), a post release, a development release and a local label.

One version has many spellings.  `Published.read` accepts capitals, white space
and a `v` around the version, `.`, `-` and `_` between its parts, words such as
`alpha` for `a`, and superfluous zeros; `Published.render` writes the one normal
form.

`Published.order` compares the epochs, then the release numbers without the
zeros at the end.  A development release comes before the prereleases of its
release, these before the release, and this before its post releases.  The
local labels are compared last, segment by segment: none comes first, numbers
come after words, and of two labels of which one continues the other the shorter
comes first.
-/

namespace TokenForge

namespace Version

/-- The stage of a prerelease. -/
inductive Stage where
  | alpha
  | beta
  | candidate
  deriving DecidableEq, Repr

/-- A segment of a local label. -/
inductive Segment where
  | number (n : Nat)
  /-- A word of lower-case letters and digits. -/
  | word (w : Text)
  deriving DecidableEq, Repr

/-- A published version. -/
structure Published where
  epoch : Nat
  numbers : List Nat
  /-- The stage and number of the prerelease, if it is one. -/
  stage : Option (Stage × Nat)
  /-- The number of the post release, if it is one. -/
  post : Option Nat
  /-- The number of the development release, if it is one. -/
  development : Option Nat
  /-- The segments of the local label, if it has one. -/
  label : List Segment
  deriving DecidableEq, Repr

namespace Published

/-! ## Order -/

/-- Segments in their order. -/
def compareSegment : Segment → Segment → Ordering
  | .number m, .number n => compare m n
  | .number _, .word _ => .gt
  | .word _, .number _ => .lt
  | .word v, .word w => Text.order v w

/-- Release numbers without the zeros at the end. -/
def significant (numbers : List Nat) : List Nat := (numbers.reverse.dropWhile (· == 0)).reverse

/-- The place of a version among those before its release, and the number in this place. -/
def stageRank (v : Published) : Nat × Nat :=
  match v.stage, v.post, v.development with
  | some (.alpha, n), _, _ => (1, n)
  | some (.beta, n), _, _ => (2, n)
  | some (.candidate, n), _, _ => (3, n)
  | none, none, some _ => (0, 0)
  | none, _, _ => (4, 0)

/-- The place of a version among the post releases of its release. -/
def postRank (v : Published) : Nat := v.post.elim 0 (· + 1)

/-- The place of a version after its development releases, and the number in this place. -/
def developmentRank (v : Published) : Nat × Nat := v.development.elim (1, 0) (0, ·)

/-- Pairs in their order. -/
def comparePair (p q : Nat × Nat) : Ordering := (compare p.1 q.1).then (compare p.2 q.2)

/-- Published versions in their order. -/
def order (v w : Published) : Ordering :=
  (compare v.epoch w.epoch).then <|
    (compareLists compare (significant v.numbers) (significant w.numbers)).then <|
    (comparePair v.stageRank w.stageRank).then <| (compare v.postRank w.postRank).then <|
    (comparePair v.developmentRank w.developmentRank).then <|
    compareLists compareSegment v.label w.label

/-- Whether a published version does not come after another. -/
def atMost (v w : Published) : Bool := v.order w != .gt

/-! ## Writing -/

/-- The letters of a stage. -/
def stageLetters : Stage → Text
  | .alpha => "a"
  | .beta => "b"
  | .candidate => "rc"

/-- A segment as it is written. -/
def renderSegment : Segment → Text
  | .number n => Text.ofNat n
  | .word w => w

/-- A part of the normal form: some letters and a number, if it is there. -/
def renderPart (letters : Text) (part : Option Nat) : Text :=
  part.elim [] fun n => letters ++ Text.ofNat n

/-- The normal form of a published version. -/
def render (v : Published) : Text :=
  (if v.epoch = 0 then [] else Text.ofNat v.epoch ++ ['!']) ++
    List.intercalate ['.'] (v.numbers.map Text.ofNat) ++
    (v.stage.elim [] fun (stage, n) => renderPart (stageLetters stage) n) ++
    renderPart ".post" v.post ++ renderPart ".dev" v.development ++
    (if v.label = [] then [] else '+' :: List.intercalate ['.'] (v.label.map renderSegment))

/-! ## Reading -/

/-- Why a text is no published version. -/
inductive Fault where
  | malformed
  /-- A number has more digits than a numeral may have. -/
  | numeralTooLong
  deriving DecidableEq, Repr

/-- The parts of a published version as they are written, with the digits of its numbers. -/
structure Parts where
  epoch : Text
  numbers : List Text
  stage : Option (Stage × Text)
  post : Option Text
  development : Option Text
  label : List Text
  deriving DecidableEq, Repr

/-- Whether a character may stand between two parts. -/
def isSeparator (c : Char) : Bool := c == '.' || c == '-' || c == '_'

/-- A text without the separator that it may begin with. -/
def dropSeparator : Text → Text
  | [] => []
  | c :: s => if isSeparator c then s else c :: s

/-- The words for the stages, where a word stands before those that it continues. -/
def stageWords : List (Text × Stage) :=
  [("alpha", .alpha), ("a", .alpha), ("beta", .beta), ("b", .beta), ("preview", .candidate),
    ("pre", .candidate), ("rc", .candidate), ("c", .candidate)]

/-- The words for a post release. -/
def postWords : List (Text × Unit) := [("post", ⟨⟩), ("rev", ⟨⟩), ("r", ⟨⟩)]

/-- The word for a development release. -/
def developmentWords : List (Text × Unit) := [("dev", ⟨⟩)]

/-- A part at the beginning of a text: a word for it and its digits, of which there may be none,
each after a separator or right away. -/
def takePart {α : Type} (words : List (Text × α)) (s : Text) : Option (α × Text) × Text :=
  let found := words.findSome? fun (word, what) =>
    (Text.after? word (dropSeparator s)).map fun rest => (what, dropSeparator rest)
  match found with
  | none => (none, s)
  | some (what, rest) =>
    (some (what, rest.takeWhile isAsciiDigit), rest.dropWhile isAsciiDigit)

/-- A post release at the beginning of a text, which may be digits after a hyphen only. -/
def takePost (s : Text) : Option Text × Text :=
  match s with
  | '-' :: c :: rest =>
    if isAsciiDigit c then
      (some ((c :: rest).takeWhile isAsciiDigit), (c :: rest).dropWhile isAsciiDigit)
    else
      let (part, rest) := takePart postWords s
      (part.map Prod.snd, rest)
  | s =>
    let (part, rest) := takePart postWords s
    (part.map Prod.snd, rest)

/-- The numbers at the beginning of a text, with points between them. -/
def takeNumbers? (s : Text) : Option (List Text × Text) :=
  let isPart := fun c => isAsciiDigit c || c == '.'
  let pieces := Text.splitOn '.' (s.takeWhile isPart)
  let rest := s.dropWhile isPart
  let (numbers, rest) := if pieces.getLast? = some [] then (pieces.dropLast, '.' :: rest)
    else (pieces, rest)
  if numbers = [] ∨ [] ∈ numbers then none else some (numbers, rest)

/-- The epoch and the release numbers at the beginning of a text. -/
def takeRelease? (s : Text) : Option (Text × List Text × Text) :=
  match takeNumbers? s with
  | some ([epoch], '!' :: rest) =>
    (takeNumbers? rest).map fun (numbers, rest) => (epoch, numbers, rest)
  | some (numbers, rest) => some ([], numbers, rest)
  | none => none

/-- The local label that a text consists of, if it is not empty. -/
def readLabel? : Text → Option (List Text)
  | [] => some []
  | '+' :: s =>
    let segments := Text.splitOn '.' (s.map fun c => if isSeparator c then '.' else c)
    if segments.all fun w => !w.isEmpty && w.all isAsciiAlphanumeric then some segments else none
  | _ => none

/-- Reads the parts of a published version. -/
def readParts? (s : Text) : Option Parts := do
  let s := (Text.strip s).map Char.toLower
  let s := match s with
    | 'v' :: s => s
    | s => s
  let (epoch, numbers, s) ← takeRelease? s
  let (stage, s) := takePart stageWords s
  let (post, s) := takePost s
  let (development, s) := takePart developmentWords s
  let label ← readLabel? s
  return ⟨epoch, numbers, stage, post, development.map Prod.snd, label⟩

/-- The number of digits.  No digits stand for zero. -/
def number (digits : Text) : Except Fault Nat :=
  if numeralLimit < digits.length then .error .numeralTooLong
  else .ok (Text.ofAsciiDigits digits)

/-- The number of digits that may be missing. -/
def numberIfAny (digits : Option Text) : Except Fault (Option Nat) :=
  match digits with
  | none => .ok none
  | some digits => (number digits).map some

/-- The segment that is written so. -/
def segment (w : Text) : Except Fault Segment :=
  if isNumeric w then (number w).map .number else .ok (.word w)

/-- The version of its parts. -/
def ofParts (parts : Parts) : Except Fault Published := do
  let epoch ← number parts.epoch
  let numbers ← parts.numbers.mapM number
  let stage ← match parts.stage with
    | none => pure none
    | some (stage, digits) => do pure (some (stage, ← number digits))
  let post ← numberIfAny parts.post
  let development ← numberIfAny parts.development
  let label ← parts.label.mapM segment
  return ⟨epoch, numbers, stage, post, development, label⟩

/-- Reads a published version. -/
def read (s : Text) : Except Fault Published :=
  match readParts? s with
  | none => .error .malformed
  | some parts => ofParts parts

end Published

end Version

end TokenForge

import TokenForge.Assoc
import TokenForge.Decimal.Shortest
import TokenForge.Text.Quoted

/-!
# JSON values

A value distinguishes integers, which are unbounded, from floating point
numbers: `2` and `2.0` are two values.  The members of an object keep their
order and no key stands twice.

By its escapes a text can name a surrogate without its partner, and then it is no
sequence of characters.  Such a text, and an object with such a key, are values
of their own, which keep the code points.  Only quoted they are shown in full;
elsewhere a replacement character stands for each surrogate.

Three readings of a value are used throughout.

* `isEmpty`: null, false, zero, and what has no elements.  Every other value
  counts as given (`isGiven`).
* `display`: the value as it is shown in a message or pasted into a source.
* `toInt`: the integer that a value stands for, as text or as a number.
-/

namespace TokenForge

/-- A JSON value. -/
inductive Json where
  | null
  | bool (b : Bool)
  | int (n : Int)
  /-- A number with a fraction or an exponent. -/
  | float (x : Binary64)
  | text (s : Text)
  | array (items : List Json)
  /-- Members in order. -/
  | object (members : List (Text × Json))
  /-- A text with a surrogate that has no partner. -/
  | illFormed (codes : CodePoints)
  /-- Members in order, one of which has such a text for its key. -/
  | illKeyed (members : List (CodePoints × Json))

namespace Json

instance : Inhabited Json := ⟨.null⟩

/-! ## Emptiness -/

/-- Whether a value is null, false, zero or without elements. -/
def isEmpty : Json → Bool
  | .null => true
  | .bool b => !b
  | .int n => n == 0
  | .float x => x.isZero
  | .text s => s.isEmpty
  | .array items => items.isEmpty
  | .object members => members.isEmpty
  | .illFormed codes => codes.isEmpty
  | .illKeyed members => members.isEmpty

/-- Whether a value is neither null, false, zero nor without elements. -/
def isGiven (v : Json) : Bool := !v.isEmpty

/-- The value, or another one in the place of an empty value. -/
def orElse (v other : Json) : Json := if v.isEmpty then other else v

/-! ## Display -/

mutual

/-- A value as it is shown inside a list or an object: texts are quoted. -/
def displayInner : Json → Text
  | .null => "None"
  | .bool true => "True"
  | .bool false => "False"
  | .int n => Text.ofInt n
  | .float x => x.render .plain
  | .text s => s.quoted
  | .array items => "[" ++ List.intercalate ", " (displayItems items) ++ "]"
  | .object members => "\x7b" ++ List.intercalate ", " (displayMembers members) ++ "\x7d"
  | .illFormed codes => codes.quoted
  | .illKeyed members => "\x7b" ++ List.intercalate ", " (displayIllKeyed members) ++ "\x7d"

/-- The items of a list as they are shown. -/
def displayItems : List Json → List Text
  | [] => []
  | v :: vs => displayInner v :: displayItems vs

/-- The members of an object as they are shown. -/
def displayMembers : List (Text × Json) → List Text
  | [] => []
  | (key, v) :: members => (key.quoted ++ ": " ++ displayInner v) :: displayMembers members

/-- The members of an object with an ill-formed key as they are shown. -/
def displayIllKeyed : List (CodePoints × Json) → List Text
  | [] => []
  | (key, v) :: members => (key.quoted ++ ": " ++ displayInner v) :: displayIllKeyed members

end

/-- A value as it is shown: a text as it is. -/
def display : Json → Text
  | .text s => s
  | .illFormed codes => codes.replaced
  | v => displayInner v

/-! ## Integers -/

/-- Why a value stands for no integer. -/
inductive NoInteger where
  /-- It is a text that is no written integer, or no number at all. -/
  | notNumeral
  | infinite
  /-- It is neither a text nor a number. -/
  | wrongKind
  deriving DecidableEq, Repr

/-- The integer that a value stands for: numbers lose their fraction, truth values count as one
and zero, and texts are read. -/
def toInt : Json → Except NoInteger Int
  | .bool b => .ok (if b then 1 else 0)
  | .int n => .ok n
  | .float x =>
    match x.toInt with
    | .ok n => .ok n
    | .error .infinite => .error .infinite
    | .error .notANumber => .error .notNumeral
  | .text s =>
    match s.toInt? with
    | some n => .ok n
    | none => .error .notNumeral
  | .illFormed _ => .error .notNumeral
  | _ => .error .wrongKind

/-! ## Parts -/

/-- The characters of a text, where surrogates are replaced. -/
def text? : Json → Option Text
  | .text s => some s
  | .illFormed codes => some codes.replaced
  | _ => none

/-- The members of an object whose keys are well formed. -/
def members? : Json → Option (Assoc Json)
  | .object members => some members
  | .illKeyed members =>
    some (members.filterMap fun (key, v) => key.characters?.map fun key => (key, v))
  | _ => none

/-- The member of an object. -/
def get? (v : Json) (key : Text) : Option Json :=
  v.members?.bind fun members => Assoc.get? members key

end Json

end TokenForge

import TokenForge.Json.Basic

/-!
# Reading JSON

`Json.read` accepts one value of RFC 8259 with white space around it, and also
the names `NaN`, `Infinity` and `-Infinity`.  A byte order mark at the beginning
and control characters inside a text are refused.  When an object has a member
twice the later value counts, at the place of the first.

Lists and objects nest at most `nestingLimit` deep.  The fault of one that nests
deeper comes before any fault inside it.

The reader recurses on a number that starts above the length of the text; each
value takes at least one character, so it never runs out.
-/

namespace TokenForge

namespace Json

/-- Why a text is not read. -/
inductive Fault where
  | malformed
  /-- An integer has more digits than a numeral may have. -/
  | numeralTooLong
  | tooDeep
  deriving DecidableEq, Repr

/-- Drops JSON white space. -/
def skipSpace (s : Text) : Text :=
  s.dropWhile fun c => c == ' ' || c == '\t' || c == '\n' || c == '\r'

/-! ## Texts -/

/-- The character of a one-letter escape, as a code point. -/
def escaped? (c : Char) : Option Nat :=
  if c = '"' ∨ c = '\\' ∨ c = '/' then some c.toNat
  else if c = 'b' then some 8
  else if c = 'f' then some 12
  else if c = 'n' then some 10
  else if c = 'r' then some 13
  else if c = 't' then some 9
  else none

/-- Reads a text after its opening quote, as code points among which there may be
surrogates, up to the closing quote. -/
def readUnits : Text → Except Fault (List Nat × Text)
  | [] => .error .malformed
  | '"' :: s => .ok ([], s)
  | '\\' :: 'u' :: a :: b :: c :: d :: s =>
    match hexNumber? [a, b, c, d] with
    | none => .error .malformed
    | some n => (readUnits s).map fun (units, rest) => (n :: units, rest)
  | '\\' :: c :: s =>
    match escaped? c with
    | none => .error .malformed
    | some n => (readUnits s).map fun (units, rest) => (n :: units, rest)
  | c :: s =>
    if c.toNat < 0x20 ∨ c = '\\' then .error .malformed
    else (readUnits s).map fun (units, rest) => (c.toNat :: units, rest)

/-- Reads a text after its opening quote, as code points. -/
def readCodes (s : Text) : Except Fault (CodePoints × Text) :=
  (readUnits s).map fun (units, rest) => (CodePoints.joinPairs units, rest)

/-- The text of code points. -/
def ofCodes (codes : CodePoints) : Json :=
  match codes.characters? with
  | some s => .text s
  | none => .illFormed codes

/-- The object of members, of which later ones count. -/
def ofMembers (members : List (CodePoints × Json)) : Json :=
  match members.mapM fun (key, v) => key.characters?.map fun key => (key, v) with
  | some members => .object (Assoc.ofPairs members)
  | none => .illKeyed (Assoc.ofPairs members)

/-! ## Numbers -/

/-- The digits at the beginning of a text and what follows them. -/
def takeDigits (s : Text) : Text × Text := (s.takeWhile isAsciiDigit, s.dropWhile isAsciiDigit)

/-- The digits after a decimal point, if there is a fraction. -/
def takeFraction (s : Text) : Text × Text :=
  match s with
  | '.' :: c :: s => if isAsciiDigit c then takeDigits (c :: s) else ([], '.' :: c :: s)
  | s => ([], s)

/-- An exponent, if there is one. -/
def takeExponent (s : Text) : Option Int × Text :=
  let unsigned (negative : Bool) (digits : Text) : Option Int × Text :=
    match takeDigits digits with
    | ([], _) => (none, s)
    | (ds, rest) =>
      let n : Int := (Text.ofAsciiDigits ds : Nat)
      (some (if negative then -n else n), rest)
  match s with
  | e :: s' =>
    if e = 'e' ∨ e = 'E' then
      match s' with
      | '-' :: digits => unsigned true digits
      | '+' :: digits => unsigned false digits
      | digits => unsigned false digits
    else (none, s)
  | [] => (none, s)

/-- Reads a number whose sign has been read. -/
def readNumber (negative : Bool) (s : Text) : Except Fault (Json × Text) :=
  let whole := match s with
    | '0' :: s => (['0'], s)
    | s => takeDigits s
  match whole with
  | ([], _) => .error .malformed
  | (digits, s) =>
    let (fraction, s) := takeFraction s
    let (exponent?, s) := takeExponent s
    match fraction, exponent? with
    | [], none =>
      if numeralLimit < digits.length then .error .numeralTooLong
      else
        let n : Int := (Text.ofAsciiDigits digits : Nat)
        .ok (.int (if negative then -n else n), s)
    | fraction, exponent? =>
      .ok (.float (Binary64.ofDecimal negative (Text.ofAsciiDigits (digits ++ fraction))
        (exponent?.getD 0 - fraction.length)), s)

/-! ## Values -/

/-- The number of lists and objects that may nest. -/
def nestingLimit : Nat := 980

mutual

/-- Reads a value that starts at the beginning of the text.  The first number counts the lists and
objects that may still nest in it. -/
def readValue : Nat → Nat → Text → Except Fault (Json × Text)
  | _, 0, _ => .error .malformed
  | _, _ + 1, [] => .error .malformed
  | levels, fuel + 1, c :: s =>
    if c = '"' then (readCodes s).map fun (codes, rest) => (ofCodes codes, rest)
    else if c = '[' then
      match levels with
      | 0 => .error .tooDeep
      | levels + 1 =>
        match skipSpace s with
        | ']' :: rest => .ok (.array [], rest)
        | s => (readItems levels fuel s).map fun (items, rest) => (.array items, rest)
    else if c = '{' then
      match levels with
      | 0 => .error .tooDeep
      | levels + 1 =>
        match skipSpace s with
        | '}' :: rest => .ok (.object [], rest)
        | s =>
          (readMembers levels fuel s).map fun (members, rest) => (ofMembers members, rest)
    else if c = '-' then
      match Text.after? "Infinity" s with
      | some rest => .ok (.float (.infinite true), rest)
      | none => readNumber true s
    else if isAsciiDigit c then readNumber false (c :: s)
    else
      match Text.after? "null" (c :: s), Text.after? "true" (c :: s), Text.after? "false" (c :: s),
        Text.after? "NaN" (c :: s), Text.after? "Infinity" (c :: s) with
      | some rest, _, _, _, _ => .ok (.null, rest)
      | _, some rest, _, _, _ => .ok (.bool true, rest)
      | _, _, some rest, _, _ => .ok (.bool false, rest)
      | _, _, _, some rest, _ => .ok (.float .notANumber, rest)
      | _, _, _, _, some rest => .ok (.float (.infinite false), rest)
      | _, _, _, _, _ => .error .malformed

/-- Reads the items of a list up to its closing bracket. -/
def readItems : Nat → Nat → Text → Except Fault (List Json × Text)
  | _, 0, _ => .error .malformed
  | levels, fuel + 1, s => do
    let (v, s) ← readValue levels fuel s
    match skipSpace s with
    | ']' :: rest => return ([v], rest)
    | ',' :: s =>
      let (vs, rest) ← readItems levels fuel (skipSpace s)
      return (v :: vs, rest)
    | _ => .error .malformed

/-- Reads the members of an object up to its closing brace. -/
def readMembers : Nat → Nat → Text → Except Fault (List (CodePoints × Json) × Text)
  | _, 0, _ => .error .malformed
  | levels, fuel + 1, s => do
    match s with
    | '"' :: s =>
      let (key, s) ← readCodes s
      match skipSpace s with
      | ':' :: s =>
        let (v, s) ← readValue levels fuel (skipSpace s)
        match skipSpace s with
        | '}' :: rest => return ([(key, v)], rest)
        | ',' :: s =>
          let (members, rest) ← readMembers levels fuel (skipSpace s)
          return ((key, v) :: members, rest)
        | _ => .error .malformed
      | _ => .error .malformed
    | _ => .error .malformed

end

/-- Reads a text that holds one value. -/
def read (s : Text) : Except Fault Json := do
  let (v, rest) ← readValue nestingLimit (2 * s.length + 2) (skipSpace s)
  match skipSpace rest with
  | [] => return v
  | _ => .error .malformed

end Json

end TokenForge

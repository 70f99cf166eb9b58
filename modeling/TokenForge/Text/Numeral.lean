import TokenForge.Text.Blank
import TokenForge.Text.DecimalDigit

/-!
# Written integers

An integer is written as an optional sign and decimal digits, of any script,
between which single underscores may stand.  White space around it does not
count, except for the ASCII separators U+001C to U+001F, which are refused.  So
is a numeral of more than `numeralLimit` digits, where leading zeros count and
the sign and the underscores do not.
-/

namespace TokenForge

/-- The number of digits that a numeral may have. -/
def numeralLimit : Nat := 4300

namespace Text

/-- The digits of a numeral without a sign. -/
def digits? : Text → Option (List Nat)
  | [] => none
  | c :: s =>
    match digitValue? c, s with
    | none, _ => none
    | some d, [] => some [d]
    | some d, '_' :: s => (digits? s).map (d :: ·)
    | some d, s => (digits? s).map (d :: ·)

/-- The number that decimal digits stand for, the highest digit first. -/
def ofDigits (ds : List Nat) : Nat := ds.foldl (fun n d => 10 * n + d) 0

/-- The number that ASCII digits stand for, the highest digit first. -/
def ofAsciiDigits (ds : Text) : Nat := ofDigits (ds.map fun c => c.toNat - 0x30)

/-- Reads a numeral without a sign. -/
def toNat? (s : Text) : Option Nat :=
  (digits? s).bind fun ds => if ds.length ≤ numeralLimit then some (ofDigits ds) else none

/-- Whether a character may surround a written integer. -/
def isNumeralBlank (c : Char) : Bool := isBlank c && !(0x1C ≤ c.toNat && c.toNat ≤ 0x1F)

/-- Reads a written integer. -/
def toInt? (s : Text) : Option Int :=
  match stripWith isNumeralBlank s with
  | '-' :: s => (toNat? s).map fun n => -(n : Int)
  | '+' :: s => (toNat? s).map Int.ofNat
  | s => (toNat? s).map Int.ofNat

/-- The decimal digits of a number. -/
def ofNat (n : Nat) : Text := Nat.toDigits 10 n

/-- The decimal digits of an integer, after a minus sign if it is negative. -/
def ofInt : Int → Text
  | .ofNat n => ofNat n
  | .negSucc n => '-' :: ofNat (n + 1)

end Text

end TokenForge

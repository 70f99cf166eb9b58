import TokenForge.Decimal.Binary64
import TokenForge.Text.Numeral

/-!
# The shortest decimal of a number

A number is written with the fewest digits that read back as the same number,
and of the decimals with that many digits the nearest is taken.  The decimals
that read back lie in the interval between the midpoints to the two neighbours
of the number, ends included when the significand is even.

`Layout` holds the decisions about how the digits are laid out: which powers of
ten are written positionally, and the texts of the numbers without digits.
-/

namespace TokenForge

namespace Binary64

/-- The decimal digits of a positive number and the power of ten of the first one. -/
structure Digits where
  /-- The digits, the first of them not a zero. -/
  digits : Text
  /-- The power of ten that the first digit counts. -/
  power : Int

/-- The reals that read as a positive number, in units of a quarter of the last place of its
significand: three numerators, lower end, value and upper end, over one denominator. -/
structure Interval where
  low : Nat
  mid : Nat
  high : Nat
  den : Nat
  /-- Whether the ends belong to it. -/
  closed : Bool

/-- The interval of `m * 2 ^ e`. -/
def intervalOf (m : Nat) (e : Int) : Interval :=
  let gap := if m = twoTo (precision - 1) ∧ minExponent < e then 1 else 2
  let up := twoTo (e - 2).toNat
  let down := twoTo (2 - e).toNat
  ⟨(4 * m - gap) * up, 4 * m * up, (4 * m + 2) * up, down, m % 2 == 0⟩

/-- Whether the decimal `n * 10 ^ p` lies in an interval. -/
def Interval.holds (i : Interval) (n : Nat) (p : Int) : Bool :=
  let x := n * tenTo p.toNat * i.den
  let unit := tenTo (-p).toNat
  if i.closed then decide (i.low * unit ≤ x) && decide (x ≤ i.high * unit)
  else decide (i.low * unit < x) && decide (x < i.high * unit)

/-- The greatest power of ten that is at most the value of an interval. -/
def Interval.power (i : Interval) : Int :=
  let guess : Int := ((Nat.toDigits 10 i.mid).length : Int) - (Nat.toDigits 10 i.den).length
  if i.mid * tenTo (-guess).toNat < tenTo guess.toNat * i.den then guess - 1 else guess

/-- The decimal of `count` digits that is nearest to the value of an interval, if it reads
back. -/
def Interval.decimal? (i : Interval) (power : Int) (count : Nat) : Option Nat :=
  let p := power - count + 1
  let num := i.mid * tenTo (-p).toNat
  let den := i.den * tenTo p.toNat
  let below := num / den
  let nearest := roundDiv num den
  let other := if nearest = below then below + 1 else below
  if i.holds nearest p then some nearest else if i.holds other p then some other else none

/-- The decimal of the fewest digits, `count` or more, that reads back, with that number of
digits, after at most `fuel` attempts. -/
def Interval.search (i : Interval) (power : Int) : Nat → Nat → Nat × Nat
  | 0, count => (0, count)
  | fuel + 1, count =>
    match i.decimal? power count with
    | some n => (n, count)
    | none => i.search power fuel (count + 1)

/-- The shortest digits of a positive number.  Seventeen digits always read back.  A decimal
that was rounded up to a power of ten has one digit more than was asked for. -/
def shortestDigits (m : Nat) (e : Int) : Digits :=
  let i := intervalOf m e
  let power := i.power
  let (n, count) := i.search power 17 1
  let digits := Nat.toDigits 10 n
  ⟨Text.stripEndWith (· == '0') digits, power + digits.length - count⟩

/-! ## Layout -/

/-- How the digits of a number are laid out. -/
structure Layout where
  /-- The least power of ten of a first digit that is written positionally. -/
  lowest : Int
  /-- The first power of ten that is not written positionally any more. -/
  limit : Int
  /-- The least number of digits of an exponent. -/
  exponentWidth : Nat
  /-- The text of an infinity. -/
  infinity : Text
  /-- The text of the value that is no number. -/
  notANumber : Text

/-- Numbers inside messages and sources: positional from 0.0001 to below 10 to the 16th, an
exponent of at least two digits otherwise. -/
def Layout.plain : Layout := ⟨-4, 16, 2, "inf", "nan"⟩

/-- Numbers inside JSON, which differ in the texts without digits. -/
def Layout.json : Layout := ⟨-4, 16, 2, "Infinity", "NaN"⟩

/-- Lays out digits with a decimal point, which is always followed by a digit. -/
def positional (d : Digits) : Text :=
  if d.power < 0 then
    "0." ++ List.replicate (-d.power - 1).toNat '0' ++ d.digits
  else
    let whole := d.power.toNat + 1
    let fraction := d.digits.drop whole
    d.digits.take whole ++ List.replicate (whole - d.digits.length) '0' ++ "." ++
      (if fraction = [] then ['0'] else fraction)

/-- Lays out digits with an exponent. -/
def scientific (layout : Layout) (d : Digits) : Text :=
  let exponent := Text.ofNat d.power.natAbs
  d.digits.take 1 ++ (if d.digits.length = 1 then [] else '.' :: d.digits.drop 1) ++
    ['e', if d.power < 0 then '-' else '+'] ++
    List.replicate (layout.exponentWidth - exponent.length) '0' ++ exponent

/-- The text of a number without its sign. -/
def magnitude (layout : Layout) (m : Nat) (e : Int) : Text :=
  if m = 0 then "0.0"
  else
    let d := shortestDigits m e
    if layout.lowest ≤ d.power ∧ d.power < layout.limit then positional d
    else scientific layout d

/-- The text of a number. -/
def render (layout : Layout) : Binary64 → Text
  | .notANumber => layout.notANumber
  | .infinite negative => (if negative then ['-'] else []) ++ layout.infinity
  | .finite negative m e =>
    (if negative then ['-'] else []) ++ magnitude layout m e

end Binary64

end TokenForge

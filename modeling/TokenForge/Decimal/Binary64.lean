import TokenForge.Text.Basic

/-!
# Binary floating point numbers of 64 bits

A finite number is a sign, a significand below 2^53 and an exponent of two of at
least -1074; every significand but those of the smallest exponent is at least
2^52, so a value has one form.  `ofDecimal` reads a decimal exactly: it takes the
nearest number and, of two that are equally near, the one with the even
significand.  All arithmetic is on natural numbers.
-/

namespace TokenForge

/-- A binary floating point number of 64 bits. -/
inductive Binary64 where
  /-- The number `significand * 2 ^ exponent`, negative or not. -/
  | finite (negative : Bool) (significand : Nat) (exponent : Int)
  | infinite (negative : Bool)
  | notANumber
  deriving DecidableEq, Repr

namespace Binary64

/-- The number of bits of a significand. -/
def precision : Nat := 53

/-- The smallest exponent. -/
def minExponent : Int := -1074

/-- The greatest exponent. -/
def maxExponent : Int := 971

/-- A power of two. -/
def twoTo (n : Nat) : Nat := Nat.pow 2 n

/-- A power of ten. -/
def tenTo (n : Nat) : Nat := Nat.pow 10 n

/-- The quotient of two natural numbers rounded to the nearest, a half to the even neighbour. -/
def roundDiv (num den : Nat) : Nat :=
  let q := num / den
  let r := 2 * (num % den)
  if r < den then q else if den < r then q + 1 else if q % 2 = 0 then q else q + 1

/-- The fraction `num * 2 ^ -e / den` as a numerator and a denominator. -/
def scaled (num den : Nat) (e : Int) : Nat × Nat :=
  if 0 ≤ e then (num, den * twoTo e.toNat) else (num * twoTo (-e).toNat, den)

/-- The exponent of the significand that a positive fraction is rounded to. -/
def exponentFor (num den : Nat) : Int :=
  let guess : Int := (num.log2 : Int) - (den.log2 : Int) - precision
  let (n, d) := scaled num den guess
  max minExponent (if n < twoTo precision * d then guess else guess + 1)

/-- The number nearest to a positive fraction. -/
def ofFraction (negative : Bool) (num den : Nat) : Binary64 :=
  let e := exponentFor num den
  let (n, d) := scaled num den e
  let m := roundDiv n d
  let (m, e) := if m = twoTo precision then (twoTo (precision - 1), e + 1) else (m, e)
  if maxExponent < e then .infinite negative else .finite negative m e

/-- The number nearest to `digits * 10 ^ exponent`.  Decimals far beyond the range are not
expanded. -/
def ofDecimal (negative : Bool) (digits : Nat) (exponent : Int) : Binary64 :=
  let size : Int := (Nat.toDigits 10 digits).length + exponent
  if digits = 0 ∨ size < -400 then .finite negative 0 minExponent
  else if 400 < size then .infinite negative
  else if 0 ≤ exponent then ofFraction negative (digits * tenTo exponent.toNat) 1
  else ofFraction negative digits (tenTo (-exponent).toNat)

/-- Whether a number is a zero of either sign. -/
def isZero : Binary64 → Bool
  | .finite _ m _ => m == 0
  | _ => false

/-- Why a number has no integer part. -/
inductive NoInteger where
  | infinite
  | notANumber
  deriving DecidableEq, Repr

/-- The integer part of a number: what is left without its fraction. -/
def toInt : Binary64 → Except NoInteger Int
  | .finite negative m e =>
    let n : Nat := if 0 ≤ e then m * twoTo e.toNat else m / twoTo (-e).toNat
    .ok (if negative then -(n : Int) else n)
  | .infinite _ => .error .infinite
  | .notANumber => .error .notANumber

end Binary64

end TokenForge

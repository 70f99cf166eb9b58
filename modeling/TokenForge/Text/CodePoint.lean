import TokenForge.Text.Basic

/-!
# Code points

A character is a code point that is no surrogate.  Where code points are named by
escapes of sixteen bits, two surrogates in a row, a high one and a low one, stand
for one character (`joinPairs`), and a surrogate may also stand alone.  Code
points among which one does are no text: `characters?` gives the text of all
others, and `replaced` puts the replacement character in the place of each.
-/

namespace TokenForge

/-- Whether a code point is the first half of a surrogate pair. -/
def isHighSurrogate (n : Nat) : Bool := 0xD800 ≤ n && n < 0xDC00

/-- Whether a code point is the second half of a surrogate pair. -/
def isLowSurrogate (n : Nat) : Bool := 0xDC00 ≤ n && n < 0xE000

/-- Whether a code point is half of a surrogate pair. -/
def isSurrogate (n : Nat) : Bool := isHighSurrogate n || isLowSurrogate n

/-- Code points in order. -/
abbrev CodePoints := List Nat

namespace CodePoints

/-- Code points with surrogate pairs put together. -/
def joinPairs : CodePoints → CodePoints
  | [] => []
  | high :: low :: codes =>
    if isHighSurrogate high && isLowSurrogate low then
      (0x10000 + (high - 0xD800) * 0x400 + (low - 0xDC00)) :: joinPairs codes
    else high :: joinPairs (low :: codes)
  | [code] => [code]

/-- The character of a code point, the replacement character for a surrogate. -/
def character (code : Nat) : Char := if isSurrogate code then '\uFFFD' else Char.ofNat code

/-- The text of code points, with surrogates replaced. -/
def replaced (codes : CodePoints) : Text := codes.map character

/-- The text of code points, if no surrogate is among them. -/
def characters? (codes : CodePoints) : Option Text :=
  if codes.any isSurrogate then none else some (replaced codes)

theorem isSurrogate_toNat (c : Char) : isSurrogate c.toNat = false := by
  have h : c.toNat < 0xD800 ∨ (0xDFFF < c.toNat ∧ c.toNat < 0x110000) := c.valid
  simp only [isSurrogate, isHighSurrogate, isLowSurrogate, Bool.or_eq_false_iff,
    Bool.and_eq_false_iff, decide_eq_false_iff_not]
  omega

theorem replaced_map_toNat (s : Text) : replaced (s.map Char.toNat) = s := by
  induction s with
  | nil => rfl
  | cons c s ih =>
    simp only [replaced, List.map_cons] at ih ⊢
    rw [ih, character, isSurrogate_toNat]
    simp

theorem characters?_map_toNat (s : Text) : characters? (s.map Char.toNat) = some s := by
  have h : (s.map Char.toNat).any isSurrogate = false := by
    simp [isSurrogate_toNat]
  simp [characters?, h, replaced_map_toNat]

end CodePoints

end TokenForge

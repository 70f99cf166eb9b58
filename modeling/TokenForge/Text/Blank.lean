import TokenForge.Text.Basic

/-!
# Blank characters

The white space of Unicode together with the four ASCII separators U+001C to
U+001F.  The zero width space and the byte order mark are not blank.
`isBlank_of_isWhitespace` says that the class holds the ASCII white space.
-/

namespace TokenForge

/-- Whether a character is white space. -/
def isBlank (c : Char) : Bool :=
  let n := c.toNat
  (0x9 ≤ n && n ≤ 0xD) || (0x1C ≤ n && n ≤ 0x20) || n == 0x85 || n == 0xA0 || n == 0x1680 ||
    (0x2000 ≤ n && n ≤ 0x200A) || n == 0x2028 || n == 0x2029 || n == 0x202F || n == 0x205F ||
    n == 0x3000

theorem isBlank_of_isWhitespace {c : Char} (h : c.isWhitespace = true) : isBlank c = true := by
  simp only [Char.isWhitespace, Bool.or_eq_true, decide_eq_true_eq] at h
  rcases h with ((h | h) | h) | h <;> subst h <;> decide

/-- Whether a character is a space or a tab. -/
def isSpaceOrTab (c : Char) : Bool := c == ' ' || c == '\t'

namespace Text

/-- Drops white space from both ends. -/
def strip (s : Text) : Text := stripWith isBlank s

/-- Drops the white space at the beginning. -/
def dropBlanks (s : Text) : Text := s.dropWhile isBlank

/-- Drops the spaces and tabs at the beginning. -/
def dropSpaces (s : Text) : Text := s.dropWhile isSpaceOrTab

/-- Drops the white space at the beginning, of which there has to be some. -/
def dropBlanks1? : Text → Option Text
  | [] => none
  | c :: s => if isBlank c then some (dropBlanks s) else none

end Text

end TokenForge

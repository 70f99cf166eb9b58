import TokenForge.Text.Scan
import TokenForge.Text.Blank
import TokenForge.Text.DecimalDigit
import TokenForge.Text.Word

/-!
# Version pragmas

A line that starts with `pragma` and mentions `solidity` gives the versions of
the compiler that its source is written for: the text after `solidity` up to the
semicolon.  `Pragma.rangeOfLine?` puts this text into the form in which ranges
are read, without blanks after an operator and without superfluous zeros in
front of a number, and `Pragma.rangeOfSource?` joins the different ranges of a
source, in the order of their texts, to one that asks for all of them.
-/

namespace TokenForge

namespace Pragma

/-- Whether a character belongs to an operator of a range. -/
def isOperatorChar (c : Char) : Bool :=
  c == '^' || c == '>' || c == '=' || c == '<' || c == '~'

/-- A text without the blanks that follow an operator.  The first argument tells whether an
operator comes right before it. -/
def closeOperators : Bool → Text → Text
  | _, [] => []
  | true, c :: s =>
    if isBlank c then closeOperators true s else c :: closeOperators (isOperatorChar c) s
  | false, c :: s => c :: closeOperators (isOperatorChar c) s

/-- Whether a position stands at the start of a word. -/
def atWordStart : Option Char → Bool
  | none => true
  | some c => !isWordChar c

/-- Recognises the superfluous zeros at the start of a number: all zeros before another digit,
and all zeros but the last otherwise. -/
def leadingZeros : Recogniser Unit
  | before, '0' :: s =>
    if atWordStart before then
      let rest := s.dropWhile (· == '0')
      if rest.head?.any isDecimalDigit then some ((), rest)
      else if s.head? = some '0' then some ((), '0' :: rest)
      else none
    else none
  | _, _ => none

/-- Whether a line is a version pragma. -/
def isVersionLine (line : Text) : Bool :=
  let line := Text.strip line
  Text.startsWith "pragma" line && Text.occursIn "solidity" line

/-- The range of a version pragma, in the form in which ranges are read. -/
def rangeOfLine? (line : Text) : Option Text :=
  let line := Text.strip line
  if Text.startsWith "pragma" line then
    (Text.afterFirst? "solidity" line).map fun rest =>
      let range := Text.strip (rest.takeWhile (· != ';'))
      Text.remove leadingZeros (closeOperators false range)
  else none

/-- The members of a list, each once, at its first place. -/
def distinct (texts : List Text) : List Text :=
  texts.foldl (fun kept t => if t ∈ kept then kept else kept ++ [t]) []

/-- The ranges of all version pragmas of a source, joined by spaces; none, if there is no
version pragma. -/
def rangeOfSource? (source : Text) : Option Text :=
  match (Text.splitOn '\n' source).filterMap rangeOfLine? with
  | [] => none
  | ranges => some (List.intercalate [' '] (sortBy Text.le (distinct ranges)))

end Pragma

end TokenForge

import TokenForge.Text.Blank
import TokenForge.Text.Scan

/-!
# Runs of blank lines

A line break is `\n` or `\r\n`, and a line of spaces and tabs is blank.  A line
break that three or more blank lines follow is the first of a run;
`collapseBlankLines` puts three line breaks of its kind in the place of the run.
-/

namespace TokenForge

namespace BlankLines

/-- The two kinds of line breaks. -/
inductive LineBreak where
  | lf
  | crlf
  deriving DecidableEq, Repr

/-- The text of a line break. -/
def LineBreak.text : LineBreak → Text
  | .lf => ['\n']
  | .crlf => ['\r', '\n']

/-- A line break at the beginning of a text and what follows it. -/
def takeBreak? (s : Text) : Option (LineBreak × Text) :=
  match s with
  | '\n' :: s => some (.lf, s)
  | '\r' :: '\n' :: s => some (.crlf, s)
  | _ => none

/-- The number of blank lines at the beginning of a text, added to `count`, and the text after
them.  `line` is where the current line begins, of which only spaces and tabs have been read. -/
def dropBlankLines (count : Nat) (line : Text) : Text → Nat × Text
  | [] => (count, line)
  | '\n' :: s => dropBlankLines (count + 1) s s
  | '\r' :: '\n' :: s => dropBlankLines (count + 1) s s
  | c :: s => if isSpaceOrTab c then dropBlankLines count line s else (count, line)

/-- Recognises a line break and the three or more blank lines after it. -/
def run : Recogniser LineBreak := fun _ s => do
  let (lineBreak, rest) ← takeBreak? s
  match dropBlankLines 0 rest rest with
  | (0, _) | (1, _) | (2, _) => none
  | (_, rest) => return (lineBreak, rest)

end BlankLines

/-- A text in which no line break is followed by more than two blank lines. -/
def collapseBlankLines (s : Text) : Text :=
  Text.replace BlankLines.run (fun b => b.text ++ b.text ++ b.text) s

end TokenForge

import TokenForge.Json.Basic

/-!
# Printing JSON

`Json.compact` prints a value on one line.  `Json.indented` puts each item and
each member on a line of its own, two spaces deeper than what holds it, and
prints empty lists and objects as `[]` and `{}`.  Characters outside printable
ASCII are escaped as UTF-16 units with four lower-case hexadecimal digits.
-/

namespace TokenForge

namespace Json

/-! ## Texts -/

/-- A UTF-16 unit as an escape. -/
def unitEscape (n : Nat) : Text := ['\\', 'u'] ++ hexDigits 4 n

/-- A character inside a JSON text. -/
def printChar (c : Char) : Text :=
  let n := c.toNat
  if c = '"' then ['\\', '"']
  else if c = '\\' then ['\\', '\\']
  else if c = '\n' then ['\\', 'n']
  else if c = '\r' then ['\\', 'r']
  else if c = '\t' then ['\\', 't']
  else if n = 8 then ['\\', 'b']
  else if n = 12 then ['\\', 'f']
  else if 0x20 ≤ n ∧ n < 0x7F then [c]
  else if n < 0x10000 then unitEscape n
  else unitEscape (0xD800 + (n - 0x10000) / 0x400) ++ unitEscape (0xDC00 + (n - 0x10000) % 0x400)

/-- A text as a JSON text. -/
def printText (s : Text) : Text := '"' :: s.flatMap printChar ++ ['"']

/-- A code point inside a JSON text. -/
def printCode (code : Nat) : Text :=
  if isSurrogate code then unitEscape code else printChar (CodePoints.character code)

/-- Code points as a JSON text. -/
def printCodes (codes : CodePoints) : Text := '"' :: codes.flatMap printCode ++ ['"']

/-! ## Values -/

/-- Prints a value that has no parts. -/
def printAtom : Json → Text
  | .null => "null"
  | .bool true => "true"
  | .bool false => "false"
  | .int n => Text.ofInt n
  | .float x => x.render .json
  | .text s => printText s
  | .illFormed codes => printCodes codes
  | .array _ => "[]"
  | .object _ | .illKeyed _ => "\x7b\x7d"

mutual

/-- Prints a value on one line. -/
def compact : Json → Text
  | .array items => "[" ++ List.intercalate ", " (compactItems items) ++ "]"
  | .object members => "\x7b" ++ List.intercalate ", " (compactMembers members) ++ "\x7d"
  | .illKeyed members => "\x7b" ++ List.intercalate ", " (compactIllKeyed members) ++ "\x7d"
  | v => printAtom v

/-- Prints items on one line each. -/
def compactItems : List Json → List Text
  | [] => []
  | v :: vs => compact v :: compactItems vs

/-- Prints members on one line each. -/
def compactMembers : List (Text × Json) → List Text
  | [] => []
  | (key, v) :: members => (printText key ++ ": " ++ compact v) :: compactMembers members

/-- Prints members of which one has an ill-formed key on one line each. -/
def compactIllKeyed : List (CodePoints × Json) → List Text
  | [] => []
  | (key, v) :: members => (printCodes key ++ ": " ++ compact v) :: compactIllKeyed members

end

/-- A line break and the indentation of a depth. -/
def newLine (depth : Nat) : Text := '\n' :: List.replicate (2 * depth) ' '

/-- Printed parts between brackets, each on a line of its own. -/
def block (depth : Nat) (opening closing : Char) (parts : List Text) : Text :=
  if parts.isEmpty then [opening, closing]
  else
    [opening] ++ newLine (depth + 1) ++
      List.intercalate (',' :: newLine (depth + 1)) parts ++ newLine depth ++ [closing]

mutual

/-- Prints a value that starts at a depth. -/
def indentedAt : Nat → Json → Text
  | depth, .array items => block depth '[' ']' (indentedItems (depth + 1) items)
  | depth, .object members => block depth '{' '}' (indentedMembers (depth + 1) members)
  | depth, .illKeyed members => block depth '{' '}' (indentedIllKeyed (depth + 1) members)
  | _, v => printAtom v

/-- Prints items at a depth. -/
def indentedItems : Nat → List Json → List Text
  | _, [] => []
  | depth, v :: vs => indentedAt depth v :: indentedItems depth vs

/-- Prints members at a depth. -/
def indentedMembers : Nat → List (Text × Json) → List Text
  | _, [] => []
  | depth, (key, v) :: members =>
    (printText key ++ ": " ++ indentedAt depth v) :: indentedMembers depth members

/-- Prints members of which one has an ill-formed key at a depth. -/
def indentedIllKeyed : Nat → List (CodePoints × Json) → List Text
  | _, [] => []
  | depth, (key, v) :: members =>
    (printCodes key ++ ": " ++ indentedAt depth v) :: indentedIllKeyed depth members

end

/-- Prints a value with one part on a line. -/
def indented (v : Json) : Text := indentedAt 0 v

end Json

end TokenForge

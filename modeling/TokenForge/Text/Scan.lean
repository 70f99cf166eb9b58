import TokenForge.Text.Basic

/-!
# Scanning a text for hits

A *recogniser* looks at one position of a text: it sees the character before
the position and the text from the position on, and answers with what it found
and the text after it.  A *scan* asks the recogniser at every position from left
to right and goes on after a hit where the hit ends, so hits do not overlap.

The result is the list of `Piece`s of the text: characters outside any hit, and
hits with the text that they cover.  `pieces_flatMap_text` says that the pieces
put together are the text again.  `hits` keeps the finds and `replace` puts
another text in the place of each.
-/

namespace TokenForge

/-- Looks for an `α` at a position, given the character before it and the text from
there on, and answers with the find and the text after it. -/
abbrev Recogniser (α : Type) := Option Char → Text → Option (α × Text)

/-- A part of a scanned text. -/
inductive Piece (α : Type) where
  /-- A character that belongs to no hit. -/
  | char (c : Char)
  /-- A hit and the text that it covers. -/
  | hit (found : α) (covered : Text)

namespace Piece

variable {α : Type}

/-- The text of a piece. -/
def text : Piece α → Text
  | .char c => [c]
  | .hit _ covered => covered

/-- What was found, if the piece is a hit. -/
def found? : Piece α → Option α
  | .char _ => none
  | .hit a _ => some a

end Piece

/-- Whether a position stands at the beginning of a line. -/
def atLineStart : Option Char → Bool
  | none => true
  | some c => c == '\n'

namespace Text

variable {α : Type}

/-- The pieces of a text of which `skip` characters still belong to the last hit. -/
def piecesFrom (find : Recogniser α) : Nat → Option Char → Text → List (Piece α)
  | _, _, [] => []
  | skip + 1, _, c :: s => piecesFrom find skip (some c) s
  | 0, before, c :: s =>
    match find before (c :: s) with
    | none => .char c :: piecesFrom find 0 (some c) s
    | some (a, rest) =>
      let taken := s.length - rest.length
      .hit a (c :: s.take taken) :: piecesFrom find taken (some c) s

/-- The pieces of a text. -/
def pieces (find : Recogniser α) (s : Text) : List (Piece α) := piecesFrom find 0 none s

theorem piecesFrom_flatMap_text (find : Recogniser α) (skip : Nat) (before : Option Char)
    (s : Text) : (piecesFrom find skip before s).flatMap Piece.text = s.drop skip := by
  induction s generalizing skip before with
  | nil => simp [piecesFrom]
  | cons c s ih =>
    cases skip with
    | succ skip => simp [piecesFrom, ih]
    | zero =>
      simp only [piecesFrom]
      split
      · simp [Piece.text, ih]
      · simp [Piece.text, ih]

theorem pieces_flatMap_text (find : Recogniser α) (s : Text) :
    (pieces find s).flatMap Piece.text = s := by
  simp [pieces, piecesFrom_flatMap_text]

/-- The finds in a text, from left to right. -/
def hits (find : Recogniser α) (s : Text) : List α := (pieces find s).filterMap Piece.found?

/-- The texts that the finds cover, from left to right. -/
def coveredByHits (find : Recogniser α) (s : Text) : List Text :=
  (pieces find s).filterMap fun
    | .char _ => none
    | .hit _ covered => some covered

/-- A text with every hit replaced. -/
def replace (find : Recogniser α) (substitute : α → Text) (s : Text) : Text :=
  (pieces find s).flatMap fun
    | .char c => [c]
    | .hit a _ => substitute a

/-- A text with every hit removed. -/
def remove (find : Recogniser α) (s : Text) : Text := replace find (fun _ => []) s

end Text

end TokenForge

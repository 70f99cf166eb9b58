import TokenForge.Import.Directive
import Mathlib.Tactic.Common

/-!
# Comments and string literals

A source is read character by character.  The `Mode` after a character says whether what
follows is code, stands in a comment or belongs to a string literal: slashes and asterisks
of a literal open no comment, and quotes of a comment open no literal.  A comment behind two
slashes and a literal without its quote end with their line.

Comments begin and end with slashes, asterisks and line feeds only (`inComment_append`).
-/

namespace TokenForge

namespace Solidity

/-- What the next character of a source belongs to. -/
inductive Mode where
  | code
  /-- Code behind a slash, with which a comment may begin. -/
  | slash
  | lineComment
  | blockComment
  /-- A block comment behind an asterisk, with which it may end. -/
  | asterisk
  | literal (quote : Char)
  /-- A literal behind a backslash. -/
  | escape (quote : Char)
  deriving DecidableEq, Repr

namespace Mode

/-- The mode after a character of code. -/
def ofCode (c : Char) : Mode :=
  if c = '/' then slash else if Import.isQuote c then literal c else code

/-- The mode after one more character. -/
def next (mode : Mode) (c : Char) : Mode :=
  match mode with
  | code => ofCode c
  | slash => if c = '/' then lineComment else if c = '*' then blockComment else ofCode c
  | lineComment => if c = '\n' then code else lineComment
  | blockComment => if c = '*' then asterisk else blockComment
  | asterisk => if c = '/' then code else if c = '*' then asterisk else blockComment
  | literal quote =>
    if c = quote || c = '\n' then code else if c = '\\' then escape quote else literal quote
  | escape quote => literal quote

/-- Whether the next character stands in a comment. -/
def isComment : Mode → Bool
  | lineComment | blockComment | asterisk => true
  | _ => false

end Mode

/-- The mode after a text. -/
def modeAfter (s : Text) : Mode := s.foldl Mode.next .code

/-- What follows a text stands in a comment. -/
def InComment (s : Text) : Prop := (modeAfter s).isComment = true

instance (s : Text) : Decidable (InComment s) := inferInstanceAs (Decidable (_ = _))

@[simp]
theorem modeAfter_append (s t : Text) :
    modeAfter (s ++ t) = t.foldl Mode.next (modeAfter s) := List.foldl_append

/-! ## What leaves comments as they are -/

namespace Mode

theorem isComment_ofCode (c : Char) : (ofCode c).isComment = false := by
  rw [ofCode]
  split
  · rfl
  · split <;> rfl

theorem isComment_next_literal (quote c : Char) : ((literal quote).next c).isComment = false := by
  rw [next]
  split
  · rfl
  · split <;> rfl

/-- Comments begin and end with slashes, asterisks and line feeds. -/
theorem isComment_next (mode : Mode) {c : Char} (h : c ≠ '/' ∧ c ≠ '*' ∧ c ≠ '\n') :
    (mode.next c).isComment = mode.isComment := by
  obtain ⟨slash, asterisk, feed⟩ := h
  cases mode with
  | literal quote => exact isComment_next_literal quote c
  | code => exact isComment_ofCode c
  | slash =>
    simp only [next, slash, asterisk, if_false]
    exact isComment_ofCode c
  | lineComment | blockComment | asterisk | escape => simp [next, isComment, *]

/-- A comment that goes on behind a line feed ends with an asterisk and a slash. -/
theorem next_lineFeed (mode : Mode) (h : (mode.next '\n').isComment = true) :
    mode.next '\n' = blockComment := by
  cases mode with
  | literal quote =>
    rw [isComment_next_literal] at h
    cases h
  | code | slash | lineComment | escape => cases h
  | blockComment | asterisk => rfl

end Mode

/-- Without slashes, asterisks and line feeds no comment begins or ends. -/
theorem inComment_append (s : Text) {plain : Text}
    (h : ∀ c ∈ plain, c ≠ '/' ∧ c ≠ '*' ∧ c ≠ '\n') : InComment (s ++ plain) ↔ InComment s := by
  rw [InComment, InComment, modeAfter_append]
  generalize modeAfter s = mode
  induction plain generalizing mode with
  | nil => rfl
  | cons c plain ih =>
    rw [List.foldl_cons, ih fun d member => h d (.tail _ member),
      mode.isComment_next (h c (.head _))]

end Solidity

end TokenForge

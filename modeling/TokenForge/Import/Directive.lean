import TokenForge.Path
import TokenForge.Text.Blank
import TokenForge.Text.Scan
import TokenForge.Text.Word

/-!
# Import directives

A directive has one of the forms

* `import "path";`
* `import "path" as name;`
* `import * as name from "path";`
* `import name from "path";`
* `import {symbols} from "path";`, where the braces may hold any text but a
  closing brace,

with single or double quotes and with white space, line breaks included, between
the words.  It stands at the beginning of a line or after a semicolon, and covers
the spaces and tabs before it and, if nothing else follows on its line, the rest
of the line with its line break.

A path that begins with `./` or `../` is relative to the file that holds the
directive; `Import.resolve` finds the path that it means there.
-/

namespace TokenForge

namespace Import

/-- A recognised directive. -/
structure Directive where
  /-- The path as it is written. -/
  path : Text
  deriving DecidableEq, Repr

/-! ## Recognition -/

/-- Whether a directive may start after a character. -/
def mayStart : Option Char → Bool
  | none => true
  | some c => c == '\n' || c == ';'

theorem mayStart_of_atLineStart {before : Option Char} (h : atLineStart before = true) :
    mayStart before = true := by
  cases before with
  | none => rfl
  | some c =>
    simp only [atLineStart, beq_iff_eq] at h
    simp [mayStart, h]

/-- What follows the names that a directive imports, up to and without `from`, if it starts
with such names. -/
def afterNames? (s : Text) : Option Text :=
  match s with
  | '{' :: s =>
    match s.dropWhile (· != '}') with
    | [] => none
    | _ :: rest => some rest
  | '*' :: s => do
    let s ← Text.dropBlanks1? s
    let s ← Text.after? "as" s
    let s ← Text.dropBlanks1? s
    Text.afterWord? s
  | s => Text.afterWord? s

/-- What follows the names and `from`, if a directive has them. -/
def afterClause? (s : Text) : Option Text := do
  let s ← afterNames? s
  let s ← Text.dropBlanks1? s
  let s ← Text.after? "from" s
  Text.dropBlanks1? s

/-- Whether a character is a quote of either kind. -/
def isQuote (c : Char) : Bool := c == '"' || c == '\''

/-- A quoted path, which is not empty, and what follows it. -/
def takePath? (s : Text) : Option (Text × Text) :=
  match s with
  | [] => none
  | quote :: s =>
    if isQuote quote then
      match s.takeWhile (!isQuote ·), s.dropWhile (!isQuote ·) with
      | [], _ => none
      | _, [] => none
      | path, _ :: rest => some (path, rest)
    else none

/-- What follows a name for the whole file, if there is one. -/
def afterAlias? (s : Text) : Option Text := do
  let s ← Text.dropBlanks1? s
  let s ← Text.after? "as" s
  let s ← Text.dropBlanks1? s
  Text.afterWord? s

/-- What follows the line break, or the end of the text, after spaces and tabs; the text itself
if something else follows. -/
def afterLineEnd (s : Text) : Text :=
  match Text.dropSpaces s with
  | [] => []
  | '\n' :: rest => rest
  | '\r' :: '\n' :: rest => rest
  | _ => s

/-- Recognises a directive. -/
def directive : Recogniser Directive := fun before s => do
  if mayStart before then
    let s ← Text.after? "import" (Text.dropSpaces s)
    let s ← Text.dropBlanks1? s
    let (path, s) ← takePath? ((afterClause? s).getD s)
    let s := (afterAlias? s).getD s
    let s ← Text.after? ";" (Text.dropBlanks s)
    return (⟨path⟩, afterLineEnd s)
  else none

/-! ## Paths -/

/-- Whether a path is relative to the file that imports it. -/
def isRelative (path : Text) : Bool :=
  Text.startsWith "./" path || Text.startsWith "../" path

/-- The path that an import means inside a file.  A text without a path of its own, or with an
empty one, has nothing that a path could be relative to. -/
def resolve (path : Text) (importer : Option Text) : Text :=
  match importer with
  | none | some [] => path
  | some importer =>
    if isRelative path then Path.normalize (Path.join (Path.directory importer) path) else path

/-- The paths that a text imports, in order of appearance. -/
def paths (source : Text) (importer : Option Text) : List Text :=
  (Text.hits directive source).map fun d => resolve d.path importer

end Import

end TokenForge

/-!
# Texts

A text is the list of its characters.  Every function of the library that reads
or writes text works on this type, so that each is a recursion on the text and
can be evaluated in a proof.  String literals may stand where a text is
expected.

* `after?` takes a fixed beginning off a text.
* `splitOn` cuts at every occurrence of a character and `List.intercalate` is
  its inverse (`intercalate_splitOn`).
* `stripWith` takes a class of characters off both ends.
-/

namespace TokenForge

/-- A text: its characters in order. -/
abbrev Text := List Char

instance : Coe String Text := ⟨String.toList⟩

/-- A property of all characters of a text is decided character by character. -/
instance Text.decidableForallMem {p : Char → Prop} [DecidablePred p] (s : Text) :
    Decidable (∀ c ∈ s, p c) := List.decidableBAll p s

/-- Whether a text is one of some texts is decided by comparing it with each. -/
instance Text.decidableMem (t : Text) (texts : List Text) : Decidable (t ∈ texts) :=
  inferInstance

namespace Text

/-! ## Beginnings -/

/-- What follows `start` in a text that begins with it. -/
def after? : Text → Text → Option Text
  | [], s => some s
  | _ :: _, [] => none
  | c :: p, d :: s => if c = d then after? p s else none

theorem after?_eq_some_iff {start s rest : Text} :
    after? start s = some rest ↔ s = start ++ rest := by
  induction start generalizing s with
  | nil => simp [after?]
  | cons c p ih =>
    cases s with
    | nil => simp [after?]
    | cons d s =>
      by_cases h : c = d
      · simp [after?, h, ih]
      · simp [after?, h, Ne.symm h]

/-- Whether a text begins with `start`. -/
def startsWith (start s : Text) : Bool := (after? start s).isSome

/-- Whether a text ends with `ending`. -/
def endsWith (ending s : Text) : Bool := startsWith ending.reverse s.reverse

/-- What follows the first occurrence of `word`. -/
def afterFirst? (word : Text) : Text → Option Text
  | [] => after? word []
  | c :: s =>
    match after? word (c :: s) with
    | some rest => some rest
    | none => afterFirst? word s

/-- Whether `word` occurs in a text. -/
def occursIn (word s : Text) : Bool := (afterFirst? word s).isSome

/-! ## Cutting and joining -/

/-- The pieces of a text between the occurrences of `sep`.  There is always one. -/
def splitOn (sep : Char) : Text → List Text
  | [] => [[]]
  | c :: s =>
    if c = sep then [] :: splitOn sep s
    else
      match splitOn sep s with
      | [] => [[c]]
      | piece :: pieces => (c :: piece) :: pieces

theorem splitOn_ne_nil (sep : Char) (s : Text) : splitOn sep s ≠ [] := by
  cases s with
  | nil => simp [splitOn]
  | cons c s =>
    simp only [splitOn]
    split
    · simp
    · split <;> simp

theorem intercalate_splitOn (sep : Char) (s : Text) :
    List.intercalate [sep] (splitOn sep s) = s := by
  induction s with
  | nil => rfl
  | cons c s ih =>
    rcases hs : splitOn sep s with _ | ⟨piece, pieces⟩
    · exact absurd hs (splitOn_ne_nil sep s)
    · by_cases h : c = sep
      · simp_all [splitOn, List.intercalate]
      · cases pieces <;> simp_all [splitOn, List.intercalate]

/-- The pieces of a text between the occurrences of `sep`, a text of at least one
character. -/
def splitOnText (sep : Text) : Nat → Text → List Text
  | _, [] => [[]]
  | skip + 1, _ :: s => splitOnText sep skip s
  | 0, c :: s =>
    match after? sep (c :: s) with
    | some _ => [] :: splitOnText sep (sep.length - 1) s
    | none =>
      match splitOnText sep 0 s with
      | [] => [[c]]
      | piece :: pieces => (c :: piece) :: pieces

/-- Drops the characters of a class from both ends. -/
def stripWith (p : Char → Bool) (s : Text) : Text :=
  ((s.dropWhile p).reverse.dropWhile p).reverse

/-- Drops the characters of a class from the end. -/
def stripEndWith (p : Char → Bool) (s : Text) : Text :=
  (s.reverse.dropWhile p).reverse

/-- Whether every character is an ASCII character. -/
def isAscii (s : Text) : Bool := s.all fun c => decide (c.toNat < 128)

/-- A text as a string. -/
def toString (s : Text) : String := String.ofList s

end Text

/-! ## Order -/

namespace Text

/-- Texts in the order of their characters' code points, a text before its extensions. -/
def order : Text → Text → Ordering
  | [], [] => .eq
  | [], _ :: _ => .lt
  | _ :: _, [] => .gt
  | c :: s, d :: t => (compare c.toNat d.toNat).then (order s t)

/-- Whether a text does not come after another. -/
def le (s t : Text) : Bool := order s t != .gt

end Text

/-- Puts an element before the first one that it may stand before. -/
def insertSorted {α : Type} (le : α → α → Bool) (a : α) : List α → List α
  | [] => [a]
  | b :: bs => if le a b then a :: b :: bs else b :: insertSorted le a bs

/-- Sorts a list.  Elements that may stand in either order keep the order they had. -/
def sortBy {α : Type} (le : α → α → Bool) (as : List α) : List α :=
  as.foldr (insertSorted le) []

theorem insertSorted_perm {α : Type} (le : α → α → Bool) (a : α) (as : List α) :
    (insertSorted le a as).Perm (a :: as) := by
  induction as with
  | nil => exact .refl _
  | cons b bs ih =>
    simp only [insertSorted]
    split
    · exact .refl _
    · exact (ih.cons b).trans (.swap a b bs)

theorem sortBy_perm {α : Type} (le : α → α → Bool) (as : List α) : (sortBy le as).Perm as := by
  induction as with
  | nil => exact .refl _
  | cons a as ih => exact (insertSorted_perm le a _).trans (ih.cons a)

end TokenForge

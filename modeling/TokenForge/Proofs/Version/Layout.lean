import TokenForge.Proofs.Flatten.Document
import TokenForge.Proofs.Text.Numeral
import TokenForge.Proofs.Text.Occurrences
import TokenForge.Proofs.Version.Pragma

/-!
# Pragmas in any layout

A version pragma asks for some comparators.  It may be written with spaces and tabs around it,
around its comparators and behind their operators, and with zeros in front of its numbers.

The range of such a pragma has the comparators without the spaces behind their operators and
without the zeros (`rangeOfLine?_text`).  What stands between two comparators is left as it is, so
that only a single space between any two gives the one normal form (`body_eq_iff`).
-/

namespace TokenForge

namespace Pragma

open Text
open Flatten (Spaces)

/-! ## Comparators -/

/-- The operators that may be written before a version. -/
inductive Sign where
  | caret
  | tilde
  | equal
  | less
  | atMost
  | greater
  | atLeast
  deriving DecidableEq, Repr

/-- A sign as it is written. -/
def Sign.text : Sign → Text
  | caret => ['^']
  | tilde => ['~']
  | equal => ['=']
  | less => ['<']
  | atMost => ['<', '=']
  | greater => ['>']
  | atLeast => ['>', '=']

/-- A number with zeros in front. -/
structure Padded where
  zeros : Nat
  value : Nat

def Padded.text (n : Padded) : Text := List.replicate n.zeros '0' ++ ofNat n.value

/-- A comparator as it is written: an operator with what follows it, if there is one, and the
numbers of a version. -/
structure Condition where
  sign : Option (Sign × Spaces)
  major : Padded
  minor : Padded
  patch : Padded

/-- Three numbers with points between them. -/
def dotted (major minor patch : Text) : Text := major ++ '.' :: (minor ++ '.' :: patch)

namespace Condition

/-- The operator of a comparator. -/
def signText (c : Condition) : Text := c.sign.elim [] fun sign => sign.1.text

/-- What stands between the operator and the version. -/
def gap (c : Condition) : Text := c.sign.elim [] fun sign => sign.2.1

/-- The version of a comparator as it is written. -/
def version (c : Condition) : Text := dotted c.major.text c.minor.text c.patch.text

def text (c : Condition) : Text := c.signText ++ (c.gap ++ c.version)

/-- A comparator without spaces. -/
def closed (c : Condition) : Text := c.signText ++ c.version

/-- A comparator without spaces and superfluous zeros. -/
def canonical (c : Condition) : Text :=
  c.signText ++ dotted (ofNat c.major.value) (ofNat c.minor.value) (ofNat c.patch.value)

end Condition

/-! ## Layouts -/

/-- Spaces and tabs, of which there are some. -/
abbrev Spaces1 := {s : Spaces // s.1 ≠ []}

/-- Comparators as they are written, each but the first behind what stands before it. -/
def series (write : Condition → Text) : Condition → List (Spaces1 × Condition) → Text
  | c, [] => write c
  | c, (gap, next) :: more => write c ++ (gap.1.1 ++ series write next more)

/-- A version pragma as it is written. -/
structure Layout where
  /-- What stands before the pragma. -/
  indent : Spaces
  /-- What follows `pragma`. -/
  gap : Spaces1
  /-- What follows `solidity`. -/
  afterName : Spaces
  first : Condition
  /-- The other comparators, each with what stands before it. -/
  more : List (Spaces1 × Condition)
  /-- What stands before the semicolon. -/
  beforeEnd : Spaces
  /-- What follows the semicolon. -/
  rest : Text

namespace Layout

/-- The comparators of a pragma. -/
def conditions (l : Layout) : List Condition := l.first :: l.more.map Prod.snd

/-- The comparators of a pragma with what stands between them. -/
def body (l : Layout) (write : Condition → Text) : Text := series write l.first l.more

/-- What stands between `solidity` and the semicolon. -/
def statement (l : Layout) : Text := l.afterName.1 ++ (l.body Condition.text ++ l.beforeEnd.1)

def text (l : Layout) : Text :=
  l.indent.1 ++ ("pragma" ++ (l.gap.1.1 ++ ("solidity" ++ (l.statement ++ ';' :: l.rest))))

/-- A pragma has one space between any two comparators. -/
def Single (l : Layout) : Prop := ∀ next ∈ l.more, next.1.1.1 = [' ']

end Layout

/-! ## Characters -/

/-- The characters of written numbers. -/
def digits : Text := "0123456789"

/-- The characters of written versions. -/
def versionChars : Text := '.' :: digits

/-- The characters of operators. -/
def signChars : Text := "^~=<>"

/-- The characters of comparators without spaces. -/
def closedChars : Text := signChars ++ versionChars

/-- The characters of spaces. -/
def spaceChars : Text := " \t"

/-- The characters of comparators with spaces. -/
def bodyChars : Text := spaceChars ++ closedChars

theorem subset_of_spaces {t : Text} (h : ∀ c ∈ t, isSpaceOrTab c = true) : t ⊆ spaceChars := by
  intro c member
  simpa [spaceChars] using isSpaceOrTab_iff.mp (h c member)

theorem Spaces.isBlank (spaces : Spaces) : ∀ c ∈ spaces.1, isBlank c = true :=
  fun c member => isBlank_of_isSpaceOrTab (spaces.2 c member)

theorem ofNat_subset (n : Nat) : ofNat n ⊆ digits := by
  intro c member
  have digit := isAsciiDigit_ofNat n c member
  have small := isAsciiDigit_iff.mp digit
  have listed : ∀ d : Fin 10, Nat.digitChar d ∈ digits := by decide
  rw [← digitChar_of_isAsciiDigit digit]
  exact listed ⟨c.toNat - 0x30, by omega⟩

theorem Padded.subset (n : Padded) : n.text ⊆ digits := by
  refine List.append_subset.mpr ⟨fun c member => ?_, ofNat_subset _⟩
  rw [List.eq_of_mem_replicate member]
  decide

theorem dotted_subset {a b c : Text} (ha : a ⊆ digits) (hb : b ⊆ digits) (hc : c ⊆ digits) :
    dotted a b c ⊆ versionChars := by
  have more : digits ⊆ versionChars := List.subset_cons_self _ _
  have point : '.' ∈ versionChars := .head _
  exact List.append_subset.mpr ⟨List.Subset.trans ha more, List.cons_subset.mpr ⟨point,
    List.append_subset.mpr ⟨List.Subset.trans hb more, List.cons_subset.mpr ⟨point,
      List.Subset.trans hc more⟩⟩⟩⟩

theorem dotted_ne_nil (a b c : Text) : dotted a b c ≠ [] := by simp [dotted]

/-- The text of a comparator without spaces has no white space at its ends. -/
theorem stripped_of_subset {t : Text} (h : t ⊆ closedChars) : Stripped t := by
  have solid : ∀ c ∈ closedChars, isBlank c = false := by decide
  exact stripped_of_solid fun c member => solid c (h member)

namespace Condition

variable (c : Condition)

theorem version_subset : c.version ⊆ versionChars :=
  dotted_subset c.major.subset c.minor.subset c.patch.subset

theorem signText_subset : c.signText ⊆ signChars := by
  rw [signText]
  rcases c.sign with _ | ⟨sign, _⟩
  · exact List.nil_subset _
  · show sign.text ⊆ _
    cases sign <;> decide

theorem gap_subset : c.gap ⊆ spaceChars := by
  rw [gap]
  rcases c.sign with _ | ⟨_, spaces⟩
  · exact List.nil_subset _
  · exact subset_of_spaces spaces.2

theorem stripped_version : Stripped c.version :=
  stripped_of_subset (List.subset_append_of_subset_right _ c.version_subset)

/-- A comparator has no white space at its ends. -/
theorem stripped_text : Stripped c.text := by
  have sign : Stripped c.signText :=
    stripped_of_subset (List.subset_append_of_subset_left _ c.signText_subset)
  cases h : c.sign with
  | none =>
    rw [text, signText, gap, h]
    exact c.stripped_version
  | some sign' =>
    refine sign.append c.stripped_version ?_ (dotted_ne_nil _ _ _) c.gap
    rw [signText, h]
    show sign'.1.text ≠ []
    cases sign'.1 <;> decide

theorem text_ne_nil : c.text ≠ [] := by simp [text, version, dotted_ne_nil]

theorem canonical_ne_nil : c.canonical ≠ [] := by simp [canonical, dotted_ne_nil]

theorem text_subset : c.text ⊆ bodyChars := by
  have signs : signChars ⊆ bodyChars := by decide
  have spaces : spaceChars ⊆ bodyChars := by decide
  have version : versionChars ⊆ bodyChars := by decide
  exact List.append_subset.mpr ⟨List.Subset.trans c.signText_subset signs,
    List.append_subset.mpr ⟨List.Subset.trans c.gap_subset spaces,
      List.Subset.trans c.version_subset version⟩⟩

theorem canonical_subset : c.canonical ⊆ closedChars :=
  List.append_subset.mpr ⟨List.subset_append_of_subset_left _ c.signText_subset,
    List.subset_append_of_subset_right _
      (dotted_subset (ofNat_subset _) (ofNat_subset _) (ofNat_subset _))⟩

end Condition

variable {write : Condition → Text}

theorem series_subset (h : ∀ c, write c ⊆ bodyChars) (c : Condition)
    (more : List (Spaces1 × Condition)) : series write c more ⊆ bodyChars := by
  induction more generalizing c with
  | nil => exact h c
  | cons next more ih =>
    have spaces : next.1.1.1 ⊆ bodyChars :=
      List.Subset.trans (subset_of_spaces next.1.1.2) (by decide)
    exact List.append_subset.mpr ⟨h c, List.append_subset.mpr ⟨spaces, ih next.2⟩⟩

theorem series_ne_nil (h : ∀ c, write c ≠ []) (c : Condition)
    (more : List (Spaces1 × Condition)) : series write c more ≠ [] := by
  cases more with
  | nil => exact h c
  | cons next more => simp [series, h]

theorem stripped_series (h : ∀ c, Stripped (write c)) (some_text : ∀ c, write c ≠ [])
    (c : Condition) (more : List (Spaces1 × Condition)) : Stripped (series write c more) := by
  induction more generalizing c with
  | nil => exact h c
  | cons next more ih =>
    exact (h c).append (ih next.2) (some_text c) (series_ne_nil some_text _ _) next.1.1.1

/-! ## Blanks behind operators -/

section Operators

variable {s t : Text}

/-- Behind a text without operators nothing is closed. -/
theorem closeOperators_append (h : ∀ c ∈ t, isOperatorChar c = false) (s : Text) :
    closeOperators false (t ++ s) = t ++ closeOperators false s := by
  induction t with
  | nil => rfl
  | cons c t ih =>
    rw [List.cons_append, closeOperators, h c (.head _), ih fun d member => h d (.tail _ member)]
    rfl

theorem closeOperators_sign (sign : Sign) (s : Text) :
    closeOperators false (sign.text ++ s) = sign.text ++ closeOperators true s := by
  cases sign <;> rfl

theorem closeOperators_blanks (h : ∀ c ∈ t, isBlank c = true) (s : Text) :
    closeOperators true (t ++ s) = closeOperators true s := by
  induction t with
  | nil => rfl
  | cons c t ih =>
    rw [List.cons_append, closeOperators, if_pos (h c (.head _)),
      ih fun d member => h d (.tail _ member)]

theorem closeOperators_of_stops (stop : Stops isBlank s) :
    closeOperators true s = closeOperators false s := by
  cases s with
  | nil => rfl
  | cons c s => rw [closeOperators, stops_cons.mp stop, closeOperators, if_neg (by decide)]

theorem Condition.closeOperators_text (c : Condition) (s : Text) :
    closeOperators false (c.text ++ s) = c.closed ++ closeOperators false s := by
  have plain : ∀ d ∈ versionChars, isOperatorChar d = false := by decide
  have version : closeOperators false (c.version ++ s) = c.version ++ closeOperators false s :=
    closeOperators_append (fun d member => plain d (c.version_subset member)) s
  have stop : Stops isBlank (c.version ++ s) :=
    stops_append_of_ne_nil c.stripped_version.first (dotted_ne_nil _ _ _) s
  rw [text, closed, signText, gap]
  rcases c.sign with _ | ⟨sign, spaces⟩
  · exact version
  · show closeOperators false ((sign.text ++ (spaces.1 ++ c.version)) ++ s) = _
    rw [List.append_assoc, List.append_assoc, closeOperators_sign,
      closeOperators_blanks (Spaces.isBlank spaces),
      closeOperators_of_stops stop, version, ← List.append_assoc]
    rfl

theorem closeOperators_series (c : Condition) (more : List (Spaces1 × Condition)) :
    closeOperators false (series Condition.text c more) = series Condition.closed c more := by
  induction more generalizing c with
  | nil => simpa [series, closeOperators] using c.closeOperators_text []
  | cons next more ih =>
    have plain : ∀ d ∈ spaceChars, isOperatorChar d = false := by decide
    rw [series, c.closeOperators_text, closeOperators_append
      fun d member => plain d (subset_of_spaces next.1.1.2 member), ih]
    rfl

end Operators

/-! ## Superfluous zeros -/

section Zeros

variable {before : Option Char} {s t : Text}

theorem leadingZeros_eq_none {c : Char} (h : c ≠ '0') : leadingZeros before (c :: s) = none := by
  unfold leadingZeros
  split
  · next same => exact absurd (List.cons.inj same).1 h
  · rfl

theorem leadingZeros_of_inWord (h : atWordStart before = false) : leadingZeros before s = none := by
  unfold leadingZeros
  split
  · rw [h]
    rfl
  · rfl

/-- A character that begins no superfluous zeros stays. -/
theorem withoutZeros_miss {c : Char} (h : leadingZeros before (c :: s) = none) :
    withoutZeros before (c :: s) = c :: withoutZeros (some c) s := by
  rw [withoutZeros, piecesFrom_miss h]
  rfl

/-- What comes before matters to zeros only. -/
theorem withoutZeros_of_stops (stop : Stops (· == '0') s) (before : Option Char) :
    withoutZeros before s = withoutZeros none s := by
  cases s with
  | nil => rfl
  | cons c s =>
    have other : c ≠ '0' := by simpa using stop
    rw [withoutZeros_miss (leadingZeros_eq_none other),
      withoutZeros_miss (leadingZeros_eq_none other)]

theorem withoutZeros_append (h : '0' ∉ t) (before : Option Char) (s : Text) :
    withoutZeros before (t ++ s) = t ++ withoutZeros (charBefore before t) s := by
  induction t generalizing before with
  | nil => rfl
  | cons c t ih =>
    have other : c ≠ '0' := fun same => h (same ▸ .head _)
    rw [List.cons_append, withoutZeros_miss (leadingZeros_eq_none other),
      ih fun member => h (.tail _ member)]
    rfl

/-- In a number no zeros are superfluous. -/
theorem withoutZeros_inWord {c : Char} (inWord : isWordChar c = true)
    (h : ∀ d ∈ t, isWordChar d = true) (s : Text) :
    withoutZeros (some c) (t ++ s) = t ++ withoutZeros (charBefore (some c) t) s := by
  induction t generalizing c with
  | nil => rfl
  | cons d t ih =>
    have start : atWordStart (some c) = false := by rw [atWordStart, inWord]; rfl
    rw [List.cons_append, withoutZeros_miss (leadingZeros_of_inWord start),
      ih (h d (.head _)) fun e member => h e (.tail _ member)]
    rfl

/-- Where no digit follows, no zero does. -/
theorem zero_of_digit (stop : Stops isDecimalDigit s) : Stops (· == '0') s := by
  intro c first
  have other := stop c first
  rw [beq_eq_false_iff_ne]
  rintro rfl
  revert other
  decide

/-- Superfluous zeros go. -/
theorem withoutZeros_hit {n : Nat}
    (h : leadingZeros before (List.replicate (n + 1) '0' ++ s) = some ((), s)) :
    withoutZeros before (List.replicate (n + 1) '0' ++ s) = withoutZeros (some '0') s := by
  have last : charBefore before (List.replicate (n + 1) '0') = some '0' := by
    rw [List.replicate_succ', charBefore_append, charBefore_cons, charBefore_nil]
  rw [withoutZeros, piecesFrom_hit h (by simp), last]
  rfl

theorem withoutZeros_ofNat {n : Nat} (h : n ≠ 0) (stop : Stops (· == '0') s)
    (before : Option Char) :
    withoutZeros before (ofNat n ++ s) = ofNat n ++ withoutZeros none s := by
  have letters : ∀ c ∈ ofNat n, isWordChar c = true := by
    have word : ∀ c ∈ digits, isWordChar c = true := by decide
    exact fun c member => word c (ofNat_subset n member)
  obtain ⟨d, ds, same, other⟩ := ofNat_eq_cons h
  rw [same] at letters ⊢
  rw [List.cons_append, withoutZeros_miss (leadingZeros_eq_none other),
    withoutZeros_inWord (letters d (.head _)) fun c member => letters c (.tail _ member),
    withoutZeros_of_stops stop]
  rfl

/-- Of zeros one stays, if no digit follows. -/
theorem withoutZeros_zeros (start : atWordStart before = true) (stop : Stops isDecimalDigit s)
    (zeros : Nat) : withoutZeros before (List.replicate zeros '0' ++ '0' :: s) =
      '0' :: withoutZeros none s := by
  have other : Stops (· == '0') s := zero_of_digit stop
  have behind : withoutZeros (some '0') s = withoutZeros none s := withoutZeros_of_stops other _
  have read := leadingZeros_zeros start zeros other
  have no_digit : s.head?.any isDecimalDigit = false := by
    cases s with
    | nil => rfl
    | cons c s => exact stops_cons.mp stop
  rw [no_digit] at read
  cases zeros with
  | zero =>
    have missed : leadingZeros before ('0' :: s) = none := read
    rw [List.replicate_zero, List.nil_append, withoutZeros_miss missed, behind]
  | succ zeros =>
    have hit : leadingZeros before (List.replicate (zeros + 1) '0' ++ '0' :: s) =
        some ((), '0' :: s) := by
      rw [List.append_cons, ← List.replicate_succ']
      exact read
    have word : atWordStart (some '0') = false := by decide
    rw [withoutZeros_hit hit, withoutZeros_miss (leadingZeros_of_inWord word), behind]

/-- All zeros in front of a number go. -/
theorem withoutZeros_zeros_ofNat (start : atWordStart before = true) {n : Nat} (h : n ≠ 0)
    (stop : Stops (· == '0') s) (zeros : Nat) :
    withoutZeros before (List.replicate zeros '0' ++ (ofNat n ++ s)) =
      ofNat n ++ withoutZeros none s := by
  cases zeros with
  | zero => exact withoutZeros_ofNat h stop before
  | succ zeros =>
    obtain ⟨d, ds, same, nonzero⟩ := ofNat_eq_cons h
    have other : Stops (· == '0') (ofNat n ++ s) := by simpa [same] using nonzero
    have digit : (ofNat n ++ s).head?.any isDecimalDigit = true := by
      have decimal : ∀ d ∈ digits, isDecimalDigit d = true := by decide
      rw [same]
      exact decimal d (ofNat_subset n (same ▸ .head _))
    have hit := leadingZeros_zeros start zeros other
    rw [if_pos digit] at hit
    rw [withoutZeros_hit hit, withoutZeros_ofNat h stop]

/-- A number loses the zeros in front of it. -/
theorem Padded.withoutZeros_text (n : Padded) (start : atWordStart before = true)
    (stop : Stops isDecimalDigit s) :
    withoutZeros before (n.text ++ s) = ofNat n.value ++ withoutZeros none s := by
  rw [text, List.append_assoc]
  by_cases nothing : n.value = 0
  · rw [nothing]
    exact withoutZeros_zeros start stop n.zeros
  · exact withoutZeros_zeros_ofNat start nothing (zero_of_digit stop) n.zeros

theorem withoutZeros_point (before : Option Char) (s : Text) :
    withoutZeros before ('.' :: s) = '.' :: withoutZeros (some '.') s :=
  withoutZeros_miss (leadingZeros_eq_none (by decide))

theorem atWordStart_charBefore (h : ∀ c ∈ t, isWordChar c = false)
    (start : atWordStart before = true) : atWordStart (charBefore before t) = true := by
  by_cases nothing : t = []
  · rw [nothing]
    exact start
  · obtain ⟨c, member, last⟩ := charBefore_mem before nothing
    rw [last, atWordStart, h c member]
    rfl

namespace Condition

theorem withoutZeros_version (c : Condition) (start : atWordStart before = true)
    (stop : Stops isDecimalDigit s) : withoutZeros before (c.version ++ s) =
      dotted (ofNat c.major.value) (ofNat c.minor.value) (ofNat c.patch.value) ++
        withoutZeros none s := by
  have point : atWordStart (some '.') = true := by decide
  have behind (t : Text) : Stops isDecimalDigit ('.' :: t) := stops_cons.mpr (by decide)
  simp only [version, dotted, List.append_assoc, List.cons_append]
  rw [c.major.withoutZeros_text start (behind _), withoutZeros_point,
    c.minor.withoutZeros_text point (behind _), withoutZeros_point,
    c.patch.withoutZeros_text point stop]

theorem withoutZeros_closed (c : Condition) (start : atWordStart before = true)
    (stop : Stops isDecimalDigit s) :
    withoutZeros before (c.closed ++ s) = c.canonical ++ withoutZeros none s := by
  have other : ∀ d ∈ signChars, d ≠ '0' ∧ isWordChar d = false := by decide
  have zero : '0' ∉ c.signText := fun member => (other _ (c.signText_subset member)).1 rfl
  have start := atWordStart_charBefore
    (fun d member => (other d (c.signText_subset member)).2) start
  rw [closed, canonical, List.append_assoc, withoutZeros_append zero,
    c.withoutZeros_version start stop, List.append_assoc]

end Condition

theorem withoutZeros_series (start : atWordStart before = true) (c : Condition)
    (more : List (Spaces1 × Condition)) :
    withoutZeros before (series Condition.closed c more) = series Condition.canonical c more := by
  induction more generalizing before c with
  | nil => simpa [series, withoutZeros, piecesFrom] using c.withoutZeros_closed start (stops_nil _)
  | cons next more ih =>
    obtain ⟨⟨gap, some_gap⟩, next⟩ := next
    have other : ∀ d ∈ spaceChars,
      d ≠ '0' ∧ isWordChar d = false ∧ isDecimalDigit d = false := by decide
    have spaces := fun d (member : d ∈ gap.1) => other d (subset_of_spaces gap.2 member)
    have stop : Stops isDecimalDigit (gap.1 ++ series Condition.closed next more) :=
      stops_append_of_ne_nil (fun d first => (spaces d (List.mem_of_mem_head? first)).2.2)
        some_gap _
    have start' : atWordStart (charBefore none gap.1) = true :=
      atWordStart_charBefore (fun d member => (spaces d member).2.1) rfl
    rw [series, c.withoutZeros_closed start stop,
      withoutZeros_append fun member => (spaces _ member).1 rfl, ih start']
    rfl

end Zeros

/-! ## Ranges -/

theorem remove_leadingZeros (s : Text) : remove leadingZeros s = withoutZeros none s := rfl

namespace Layout

variable (l : Layout)

theorem statement_subset : l.statement ⊆ bodyChars := by
  have spaces (part : Spaces) : part.1 ⊆ bodyChars :=
    List.subset_append_of_subset_left _ (subset_of_spaces part.2)
  exact List.append_subset.mpr ⟨spaces _, List.append_subset.mpr
    ⟨series_subset Condition.text_subset _ _, spaces _⟩⟩

theorem strip_statement : strip l.statement = l.body Condition.text :=
  strip_append (stripped_series Condition.stripped_text Condition.text_ne_nil _ _)
    (series_ne_nil Condition.text_ne_nil _ _) (Spaces.isBlank l.afterName)
    (Spaces.isBlank l.beforeEnd)

/-- At its end a line is stripped behind the semicolon. -/
theorem exists_strip_text : ∃ kept, strip l.text = "pragma".toList ++
    (l.gap.1.1 ++ ("solidity".toList ++ (l.statement ++ ';' :: kept))) := by
  have first : Stripped "pragma" := stripped_of_solid (by decide)
  have last : Stripped [';'] := stripped_of_solid (by decide)
  have core := first.append last (by decide) (by decide)
    (l.gap.1.1 ++ ("solidity".toList ++ l.statement))
  obtain ⟨kept, same⟩ := exists_strip_append core (by simp) (Spaces.isBlank l.indent) l.rest
  refine ⟨kept, ?_⟩
  rw [text]
  simpa using same

end Layout

/-- The range of a version pragma. -/
theorem rangeOfLine?_text (l : Layout) :
    rangeOfLine? l.text = some (l.body Condition.canonical) := by
  obtain ⟨kept, stripped⟩ := l.exists_strip_text
  have opens : startsWith "pragma" (strip l.text) = true := by
    rw [stripped, startsWith, after?_append]
    rfl
  have found : afterFirst? "solidity" (strip l.text) = some (l.statement ++ ';' :: kept) := by
    have absent : 's' ∉ "pragma".toList ++ l.gap.1.1 := by
      rw [List.mem_append, not_or]
      exact ⟨by decide, fun member => absurd (subset_of_spaces l.gap.1.2 member) (by decide)⟩
    rw [stripped, ← List.append_assoc]
    exact afterFirst?_append absent _
  have taken : (l.statement ++ ';' :: kept).takeWhile (· != ';') = l.statement := by
    have other : ∀ d ∈ bodyChars, (d != ';') = true := by decide
    exact takeWhile_append_of_stops (fun d member => other d (l.statement_subset member))
      (stops_cons.mpr (by decide))
  simp only [rangeOfLine?, opens, if_true, found, Option.map_some, taken, l.strip_statement,
    remove_leadingZeros]
  rw [Layout.body, closeOperators_series, withoutZeros_series rfl]
  rfl

/-! ## Normal forms -/

theorem series_single (write : Condition → Text) {more : List (Spaces1 × Condition)}
    (h : ∀ next ∈ more, next.1.1.1 = [' ']) (c : Condition) :
    series write c more = List.intercalate [' '] ((c :: more.map Prod.snd).map write) := by
  induction more generalizing c with
  | nil => simp [series]
  | cons next more ih =>
    rw [series, h next (.head _), ih fun other member => h other (.tail _ member)]
    simp only [List.map_cons, List.intercalate_cons_cons, List.append_assoc]

theorem Condition.stops_canonical (c : Condition) (t : Text) :
    Stops isSpaceOrTab (c.canonical ++ t) := by
  have solid : ∀ d ∈ closedChars, isSpaceOrTab d = false := by decide
  exact stops_append_of_ne_nil (fun d first => solid d (c.canonical_subset
    (List.mem_of_mem_head? first))) c.canonical_ne_nil t

theorem stops_series (c : Condition) (more : List (Spaces1 × Condition)) :
    Stops isSpaceOrTab (series Condition.canonical c more) := by
  cases more with
  | nil => simpa [series] using c.stops_canonical []
  | cons next more => exact c.stops_canonical _

theorem stops_intercalate (c : Condition) (cs : List Condition) :
    Stops isSpaceOrTab (List.intercalate [' '] ((c :: cs).map Condition.canonical)) := by
  cases cs with
  | nil => simpa using c.stops_canonical []
  | cons d cs =>
    rw [List.map_cons, List.map_cons, List.intercalate_cons_cons, List.append_assoc]
    exact c.stops_canonical _

/-- Between comparators nothing but single spaces gives the normal form. -/
theorem series_eq_iff (c : Condition) (more : List (Spaces1 × Condition)) :
    series Condition.canonical c more =
        List.intercalate [' '] ((c :: more.map Prod.snd).map Condition.canonical) ↔
      ∀ next ∈ more, next.1.1.1 = [' '] := by
  refine ⟨fun same => ?_, fun h => series_single _ h c⟩
  induction more generalizing c with
  | nil => exact List.forall_mem_nil _
  | cons next more ih =>
    rw [series, List.map_cons, List.map_cons, List.map_cons, List.intercalate_cons_cons,
      List.append_assoc, List.append_cancel_left_eq, ← List.map_cons] at same
    obtain ⟨gap, rest⟩ := append_inj_of_stops next.1.1.2 (by decide) (stops_series _ _)
      (stops_intercalate _ _) same
    exact List.forall_mem_cons.mpr ⟨gap, ih next.2 rest⟩

/-- The range of a version pragma is the comparators in their normal form with single spaces
between them if and only if they are written with single spaces between them. -/
theorem Layout.body_eq_iff (l : Layout) : l.body Condition.canonical =
    List.intercalate [' '] (l.conditions.map Condition.canonical) ↔ l.Single :=
  series_eq_iff l.first l.more

end Pragma

end TokenForge

import Mathlib.Data.List.TakeWhile
import TokenForge.Proofs.Flatten.Anchored
import TokenForge.Proofs.Flatten.BlankLines
import TokenForge.Proofs.Flatten.PreambleLine

/-!
# Feature pragmas and what follows them

A feature pragma reads over line ends only between its words.  So in front of anything, a text
that ends in a line feed (`Lined`) either begins with no feature pragma, or it begins with one that
ends within it, or it is the beginning of one (`Begun`): the name of the feature is yet to come, and
the rest depends on what follows, from the first character on that is no white space (`Outlook`).

Where another `pragma` follows, nothing is read over the line end, so that the text up to it is
scanned by itself (`piecesFrom_append`).  And blank lines change nothing about the pragmas that are
found (`hits_collapseBlankLines`).
-/

namespace TokenForge

open Text

/-! ## Texts that end in a line feed -/

/-- A text ends in a line feed. -/
def Lined (s : Text) : Prop := ∃ front, s = front ++ ['\n']

namespace Lined

variable {s t : Text}

theorem ne_nil (h : Lined s) : s ≠ [] := by
  obtain ⟨front, rfl⟩ := h
  simp

theorem append (h : Lined t) (s : Text) : Lined (s ++ t) := by
  obtain ⟨front, rfl⟩ := h
  exact ⟨s ++ front, (List.append_assoc ..).symm⟩

theorem of_suffix (h : Lined s) (suffix : t <:+ s) (some_text : t ≠ []) : Lined t := by
  obtain ⟨front, rfl⟩ := h
  rcases List.eq_nil_or_concat t with rfl | ⟨init, last, rfl⟩
  · exact absurd rfl some_text
  · obtain ⟨read, split⟩ := suffix
    rw [List.concat_eq_append, ← List.append_assoc] at split
    obtain rfl := List.singleton_inj.mp (List.append_inj' split rfl).2
    exact ⟨init, List.concat_eq_append⟩

/-- Behind a character that is no line feed. -/
theorem behind {c : Char} (h : Lined (c :: s)) (other : c ≠ '\n') : Lined s := by
  refine h.of_suffix (List.suffix_cons c s) ?_
  rintro rfl
  obtain ⟨front, split⟩ := h
  have last := congrArg List.getLast? split
  rw [List.getLast?_concat] at last
  exact other (Option.some.inj last)

/-- Behind a part of a text that ends in a line feed nothing is left, in a new line, or a text
that does too. -/
theorem left (h : Lined (s ++ t)) (before : Option Char) :
    t = [] ∧ atLineStart (charBefore before s) = true ∨ Lined t := by
  by_cases left : t = []
  · subst left
    obtain ⟨front, whole⟩ := h
    rw [List.append_nil] at whole
    rw [whole, charBefore_append]
    exact .inl ⟨rfl, rfl⟩
  · exact .inr (h.of_suffix (List.suffix_append s t) left)

theorem dropWhile_append (h : Lined s) {p : Char → Bool} (stop : p '\n' = false) (tail : Text) :
    (s ++ tail).dropWhile p = s.dropWhile p ++ tail := by
  obtain ⟨front, rfl⟩ := h
  rw [List.append_assoc, List.singleton_append,
    dropWhile_append_of_atBreak stop (atBreak_cons tail),
    dropWhile_append_of_atBreak stop (atBreak_cons []), List.append_assoc]
  rfl

theorem dropWhile (h : Lined s) {p : Char → Bool} (stop : p '\n' = false) :
    Lined (s.dropWhile p) := by
  obtain ⟨front, rfl⟩ := h
  rw [dropWhile_append_of_atBreak stop (atBreak_cons [])]
  exact ⟨_, rfl⟩

/-- A word on one line stands in the text or is not read, whatever follows. -/
theorem after? (h : Lined s) (word : Text) (single : '\n' ∉ word) :
    (∀ tail, Text.after? word (s ++ tail) = none) ∨ ∃ rest, Lined rest ∧ s = word ++ rest := by
  by_cases stands : word <+: s
  · obtain ⟨rest, rfl⟩ := stands
    refine .inr ⟨rest, h.of_suffix (List.suffix_append word rest) ?_, rfl⟩
    rintro rfl
    obtain ⟨front, split⟩ := h
    exact single (by simpa using congrArg (fun s : Text => '\n' ∈ s) split)
  · refine .inl fun tail => ?_
    cases read : Text.after? word (s ++ tail) with
    | none => rfl
    | some rest =>
      obtain ⟨front, rfl⟩ := h
      rw [List.append_assoc] at read
      have inside := isPrefix_of_after? single read (atBreak_cons tail)
      exact absurd (inside.trans (List.prefix_append front _)) stands

end Lined

/-- White space that is empty or ends in a line feed. -/
structure Spacing (s : Text) : Prop where
  blank : ∀ c ∈ s, isBlank c = true
  lined : s = [] ∨ Lined s

theorem Spacing.nil : Spacing [] := ⟨by simp, .inl rfl⟩

/-! ## Words with white space behind them -/

/-- What follows a word and white space. -/
def afterSpaced? (word s : Text) : Option Text := (Text.after? word s).bind Text.dropBlanks1?

/-- How a word with white space behind it is read in a text that ends in a line feed, in front of
anything. -/
inductive Spaced (word s : Text) : Prop where
  | never : (∀ tail, afterSpaced? word (s ++ tail) = none) → Spaced word s
  | inside {rest : Text} : Lined rest →
    (∀ tail, afterSpaced? word (s ++ tail) = some (rest ++ tail)) → Spaced word s
  /-- The white space goes on behind the text. -/
  | beyond : (∀ tail, afterSpaced? word (s ++ tail) = some (dropBlanks tail)) → Spaced word s

theorem Lined.spaced {s : Text} (h : Lined s) (word : Text) (single : '\n' ∉ word) :
    Spaced word s := by
  rcases h.after? word single with none | ⟨rest, lined, rfl⟩
  · exact .never fun tail => by rw [afterSpaced?, none, Option.bind_none]
  have read : ∀ tail, afterSpaced? word (word ++ rest ++ tail) = dropBlanks1? (rest ++ tail) := by
    intro tail
    rw [afterSpaced?, List.append_assoc, after?_append, Option.bind_some]
  obtain ⟨c, more, rfl⟩ := List.exists_cons_of_ne_nil lined.ne_nil
  cases blank : isBlank c with
  | false => exact .never fun tail => by rw [read, List.cons_append, dropBlanks1?, blank]; rfl
  | true =>
    have drops : ∀ tail, afterSpaced? word (word ++ (c :: more) ++ tail) =
        some (dropBlanks (more ++ tail)) := by
      intro tail
      rw [read, List.cons_append, dropBlanks1?, blank]
      rfl
    by_cases all : ∀ d ∈ more, isBlank d = true
    · refine .beyond fun tail => ?_
      rw [drops, dropBlanks, List.dropWhile_append_of_pos all, dropBlanks]
    · have left : more.dropWhile isBlank ≠ [] := by
        rwa [Ne, List.dropWhile_eq_nil_iff]
      have suffix : more.dropWhile isBlank <:+ c :: more :=
        (List.dropWhile_suffix _).trans (List.suffix_cons c more)
      refine .inside (lined.of_suffix suffix left) fun tail => ?_
      rw [drops, dropBlanks, List.dropWhile_append, if_neg (by simpa using left)]

/-! ## From the name of the feature on -/

namespace Preamble

/-- A feature and what follows the statement that it is named in, if the text begins with its
name, perhaps behind a quote. -/
def afterFeature? (s : Text) : Option (Feature × Text) := do
  let (feature, s) ← takeFeature? (dropQuote s)
  match s.dropWhile fun c => c != ';' && c != '\n' with
  | ';' :: rest => return (feature, afterStatement rest)
  | _ => none

/-- A feature and what follows its pragma, from what stands behind `pragma`. -/
def afterPragma? (s : Text) : Option (Feature × Text) :=
  afterFeature? ((afterExperimental? s).getD s)

theorem featurePragma_eq (before : Option Char) (s : Text) :
    featurePragma before s = if atLineStart before then
      (afterSpaced? "pragma" (dropSpaces s)).bind afterPragma? else none := by
  rw [featurePragma, afterSpaced?, Option.bind_assoc]
  rfl

/-- Whether a feature pragma is recognised depends on the character before it only as far as it
begins a line. -/
theorem featurePragma_start (before : Option Char) (s : Text) :
    featurePragma before s = if atLineStart before then featurePragma none s else none := rfl

theorem featurePragma_congr {before before' : Option Char}
    (same : atLineStart before = atLineStart before') (s : Text) :
    featurePragma before s = featurePragma before' s := by
  rw [featurePragma_start, featurePragma_start before', same]

variable {s rest : Text} {feature : Feature}

theorem lined_dropQuote (h : Lined s) (tail : Text) :
    dropQuote (s ++ tail) = dropQuote s ++ tail ∧ Lined (dropQuote s) := by
  obtain ⟨c, s, rfl⟩ := List.exists_cons_of_ne_nil h.ne_nil
  by_cases double : c = '"'
  · subst double
    exact ⟨rfl, h.behind (by decide)⟩
  by_cases single : c = '\''
  · subst single
    exact ⟨rfl, h.behind (by decide)⟩
  have same : ∀ t, dropQuote (c :: t) = c :: t := fun t =>
    dropQuote.eq_3 (c :: t) (fun _ quote => double (List.cons.inj quote).1)
      fun _ quote => single (List.cons.inj quote).1
  rw [List.cons_append, same, same]
  exact ⟨rfl, h⟩

theorem atWordEnd_append (some_text : s ≠ []) (tail : Text) :
    atWordEnd (s ++ tail) = atWordEnd s := by
  obtain ⟨c, s, rfl⟩ := List.exists_cons_of_ne_nil some_text
  rfl

theorem lined_takeFeature? (h : Lined s) : (∀ tail, takeFeature? (s ++ tail) = none) ∨
    ∃ feature rest, Lined rest ∧
      ∀ tail, takeFeature? (s ++ tail) = some (feature, rest ++ tail) := by
  by_cases named : ∃ (feature : Feature) (rest : Text),
      s = feature.name ++ rest ∧ Lined rest ∧ atWordEnd rest = true
  · obtain ⟨feature, rest, rfl, lined, ends⟩ := named
    refine .inr ⟨feature, rest, lined, fun tail => ?_⟩
    rw [List.append_assoc]
    refine Flatten.takeFeature?_name feature ?_
    obtain ⟨c, rest, rfl⟩ := List.exists_cons_of_ne_nil lined.ne_nil
    exact stops_cons.mpr (by simpa [atWordEnd] using ends)
  · refine .inl fun tail => List.findSome?_eq_none_iff.mpr fun feature _ => ?_
    rcases h.after? feature.name (by cases feature <;> decide) with none |
      ⟨rest, lined, rfl⟩
    · rw [none]
    · rw [List.append_assoc, after?_append]
      dsimp only
      rw [atWordEnd_append lined.ne_nil, if_neg fun ends => named ⟨feature, rest, rfl, lined, ends⟩]

theorem lined_afterStatement (h : Lined s) (tail : Text) :
    afterStatement (s ++ tail) = afterStatement s ++ tail := by
  have spaces : Lined (dropSpaces s) := h.dropWhile (by decide)
  obtain ⟨c, left, whole⟩ := List.exists_cons_of_ne_nil spaces.ne_nil
  have behind : dropSpaces (s ++ tail) = c :: (left ++ tail) := by
    rw [dropSpaces, h.dropWhile_append (by decide), ← dropSpaces, whole, List.cons_append]
  rw [whole] at spaces
  rw [afterStatement, behind, afterStatement, whole]
  by_cases return_ : c = '\r'
  · subst return_
    obtain ⟨d, rest, rfl⟩ := List.exists_cons_of_ne_nil (spaces.behind (by decide)).ne_nil
    by_cases feed : d = '\n'
    · subst feed
      rfl
    · simp [feed]
  · by_cases feed : c = '\n'
    · subst feed
      rfl
    · simp [return_, feed]

theorem lined_afterFeature? (h : Lined s) : (∀ tail, afterFeature? (s ++ tail) = none) ∨
    ∃ feature rest, ∀ tail, afterFeature? (s ++ tail) = some (feature, rest ++ tail) := by
  have quote := lined_dropQuote h
  rcases lined_takeFeature? (quote []).2 with none | ⟨feature, body, lined, taken⟩
  · refine .inl fun tail => ?_
    rw [afterFeature?, (quote tail).1, none]
    rfl
  have read : ∀ tail, afterFeature? (s ++ tail) =
      match (body ++ tail).dropWhile fun c => c != ';' && c != '\n' with
      | ';' :: rest => some (feature, afterStatement rest)
      | _ => none := by
    intro tail
    rw [afterFeature?, (quote tail).1, taken]
    rfl
  have left : Lined (body.dropWhile fun c => c != ';' && c != '\n') := lined.dropWhile (by decide)
  obtain ⟨c, rest, ending⟩ := List.exists_cons_of_ne_nil left.ne_nil
  simp only [lined.dropWhile_append (p := fun c => c != ';' && c != '\n') (by decide), ending,
    List.cons_append] at read
  rw [ending] at left
  by_cases semicolon : c = ';'
  · subst semicolon
    refine .inr ⟨feature, afterStatement rest, fun tail => ?_⟩
    rw [read, ← lined_afterStatement (left.behind (by decide))]
    rfl
  · refine .inl fun tail => ?_
    rw [read]
    split
    · rename_i same
      exact absurd (List.cons.inj same).1 semicolon
    · rfl

/-! ## What a text begins with, in front of anything -/

/-- A text begins with `pragma` behind spaces and tabs. -/
def AtPragma (s : Text) : Prop :=
  ∃ spaces rest, (∀ c ∈ spaces, isSpaceOrTab c = true) ∧ s = spaces ++ ("pragma" ++ rest)

/-- A text is the beginning of a feature pragma: the name of a feature makes it one. -/
def Begun (s : Text) : Prop := featurePragma none (s ++ "abicoder;") = some (.abicoder, [])

instance (s : Text) : Decidable (Begun s) := inferInstanceAs (Decidable (_ = _))

/-- How the beginning of a text that ends in a line feed is read, in front of anything. -/
inductive Outlook (s : Text) : Prop where
  | never : (∀ tail, featurePragma none (s ++ tail) = none) → Outlook s
  | inside {feature : Feature} {rest : Text} :
    (∀ tail, featurePragma none (s ++ tail) = some (feature, rest ++ tail)) → Outlook s
  /-- The rest of a pragma may follow. -/
  | beyond {read : Text → Option (Feature × Text)} : Begun s →
    (∀ tail, featurePragma none (s ++ tail) = read (dropBlanks tail)) →
    (∀ tail feature rest, read tail = some (feature, rest) →
      ∃ covered, covered ≠ [] ∧ tail = covered ++ rest) →
    (∀ tail, read ("pragma" ++ tail) = none) → Outlook s

theorem covered_of_afterFeature? (h : afterFeature? s = some (feature, rest)) :
    ∃ covered, covered ≠ [] ∧ s = covered ++ rest := by
  simp only [afterFeature?, Option.bind_eq_bind, Option.bind_eq_some_iff, Option.pure_def] at h
  obtain ⟨⟨named, body⟩, taken, h⟩ := h
  have statement := List.dropWhile_suffix (l := body) fun c => c != ';' && c != '\n'
  split at h
  · next after ending =>
    cases h
    rw [ending] at statement
    have within : ';' :: after <:+ s := by
      calc ';' :: after
        _ <:+ body := statement
        _ <:+ dropQuote s := suffix_of_takeFeature? taken
        _ <:+ s := dropQuote_suffix s
    obtain ⟨front, rfl⟩ := within
    obtain ⟨trailing, split⟩ := afterStatement_suffix after
    refine ⟨front ++ ';' :: trailing, by simp, ?_⟩
    rw [List.append_assoc, List.cons_append, split]
  · cases h

theorem covered_of_afterPragma? (h : afterPragma? s = some (feature, rest)) :
    ∃ covered, covered ≠ [] ∧ s = covered ++ rest := by
  obtain ⟨covered, some_text, split⟩ := covered_of_afterFeature? h
  obtain ⟨front, whole⟩ := getD_suffix suffix_of_afterExperimental? s
  refine ⟨front ++ covered, by simp [some_text], ?_⟩
  rw [List.append_assoc, ← split, whole]

theorem outlook (h : Lined s) : Outlook s := by
  have spaces : Lined (dropSpaces s) := h.dropWhile (by decide)
  have start : ∀ tail, featurePragma none (s ++ tail) =
      (afterSpaced? "pragma" (dropSpaces s ++ tail)).bind afterPragma? := by
    intro tail
    rw [featurePragma_eq, dropSpaces, h.dropWhile_append (by decide)]
    rfl
  -- A feature that is named in the text itself, on one line.
  have named : ∀ {body : Text}, Lined body →
      (∀ tail, featurePragma none (s ++ tail) = afterFeature? (body ++ tail)) → Outlook s := by
    intro body lined read
    rcases lined_afterFeature? lined with none | ⟨feature, rest, found⟩
    · exact .never fun tail => by rw [read, none]
    · exact .inside fun tail => by rw [read, found]
  rcases spaces.spaced "pragma" (by decide) with none | ⟨lined, pragma⟩ | pragma
  · exact .never fun tail => by rw [start, none, Option.bind_none]
  · rename_i rest
    have read : ∀ tail, featurePragma none (s ++ tail) = afterPragma? (rest ++ tail) :=
      fun tail => by rw [start, pragma, Option.bind_some]
    rcases lined.spaced "experimental" (by decide) with none | ⟨lined', word⟩ | word
    · refine named lined fun tail => ?_
      rw [read, afterPragma?, show afterExperimental? (rest ++ tail) = _ from none tail,
        Option.getD_none]
    · refine named lined' fun tail => ?_
      rw [read, afterPragma?, show afterExperimental? (rest ++ tail) = _ from word tail,
        Option.getD_some]
    · have past : ∀ tail, featurePragma none (s ++ tail) = afterFeature? (dropBlanks tail) := by
        intro tail
        rw [read, afterPragma?, show afterExperimental? (rest ++ tail) = _ from word tail,
          Option.getD_some]
      exact .beyond (past _) past (fun _ _ _ => covered_of_afterFeature?) fun _ => rfl
  · have past : ∀ tail, featurePragma none (s ++ tail) = afterPragma? (dropBlanks tail) :=
      fun tail => by rw [start, pragma, Option.bind_some]
    exact .beyond (past _) past (fun _ _ _ => covered_of_afterPragma?) fun _ => rfl

/-! ## Scanning up to a pragma -/

variable {before : Option Char} {tail : Text}

theorem atPragma_of_hit (h : featurePragma before s = some (feature, rest)) : AtPragma s := by
  rw [featurePragma_eq, Option.ite_none_right_eq_some, Option.bind_eq_some_iff] at h
  obtain ⟨-, left, spaced, -⟩ := h
  obtain ⟨behind, word, -⟩ := Option.bind_eq_some_iff.mp spaced
  obtain ⟨spaces, blank, whole⟩ := exists_spaces s
  exact ⟨spaces, behind, blank, by rw [← after?_eq_some_iff.mp word, ← whole]⟩

theorem AtPragma.dropBlanks (h : AtPragma s) : ∃ rest, Text.dropBlanks s = "pragma" ++ rest := by
  obtain ⟨spaces, rest, blank, rfl⟩ := h
  refine ⟨rest, dropBlanks_append (fun c member => ?_) (stops_append rfl (by decide))⟩
  exact isBlank_of_isSpaceOrTab (blank c member)

/-- What ends in a line feed is read as it is where a pragma follows. -/
theorem featurePragma_append (h : Lined s) (follows : AtPragma tail) (before : Option Char) :
    featurePragma before (s ++ tail) =
      (featurePragma before s).map fun hit => (hit.1, hit.2 ++ tail) := by
  rw [featurePragma_start, featurePragma_start before s]
  split
  · have alone : s = s ++ [] := (List.append_nil s).symm
    cases outlook h with
    | never none =>
      rw [none, alone, none]
      rfl
    | inside found =>
      rw [found, alone, found, List.append_nil]
      rfl
    | @beyond more _ read closed other =>
      obtain ⟨behind, begins⟩ := follows.dropBlanks
      rw [read, begins, other, alone, read]
      cases ending : more (Text.dropBlanks []) with
      | none => rfl
      | some hit =>
        obtain ⟨covered, some_text, split⟩ := closed _ _ _ ending
        exact absurd (List.append_eq_nil_iff.mp split.symm).1 some_text
  · rfl

/-- A pragma that ends in front of another one stands there in front of anything. -/
theorem featurePragma_other (h : Lined s) (follows : AtPragma tail)
    (found : featurePragma before (s ++ tail) = some (feature, rest ++ tail)) (other : Text) :
    featurePragma before (s ++ other) = some (feature, rest ++ other) := by
  have start : atLineStart before = true := (featurePragma_anchored _ _ _ _ found).1
  rw [featurePragma_start, if_pos start] at found ⊢
  cases outlook h with
  | never none => cases (none tail).symm.trans found
  | inside read =>
    obtain ⟨rfl, same⟩ := Prod.mk.inj (Option.some.inj ((read tail).symm.trans found))
    rw [read, List.append_left_inj _ |>.mp same]
  | beyond _ read _ none =>
    obtain ⟨behind, begins⟩ := follows.dropBlanks
    rw [read, begins, none] at found
    cases found

/-- What is no pragma in front of another one is none in front of anything, but for the beginning
of a pragma. -/
theorem featurePragma_other_eq_none (h : Lined s) (complete : ¬ Begun s)
    (missed : featurePragma none (s ++ tail) = none) (other : Text) :
    featurePragma none (s ++ other) = none := by
  cases outlook h with
  | never none => exact none other
  | inside read => cases (read tail).symm.trans missed
  | beyond begun => exact absurd begun complete

/-- What ends in a line feed is scanned by itself where a pragma follows. -/
theorem piecesFrom_append (h : s = [] ∨ Lined s) (follows : AtPragma tail) (before : Option Char) :
    piecesFrom featurePragma 0 before (s ++ tail) =
      piecesFrom featurePragma 0 before s ++
        piecesFrom featurePragma 0 (charBefore before s) tail := by
  induction before, s using scan_induction featurePragma_anchored with
  | done before => rfl
  | miss before c s missed ih =>
    have lined : Lined (c :: s) := h.resolve_left (List.cons_ne_nil c s)
    have missed' : featurePragma before (c :: (s ++ tail)) = none := by
      rw [← List.cons_append, featurePragma_append lined follows, missed]
      rfl
    rw [List.cons_append, piecesFrom_miss missed', piecesFrom_miss missed, ih, List.cons_append,
      charBefore_cons]
    by_cases some_text : s = []
    · exact .inl some_text
    · exact .inr (lined.of_suffix (List.suffix_cons c s) some_text)
  | hit before covered rest feature _ some_text found ih =>
    have lined : Lined (covered ++ rest) := h.resolve_left (by simp [some_text])
    have found' : featurePragma before (covered ++ (rest ++ tail)) =
        some (feature, rest ++ tail) := by
      rw [← List.append_assoc, featurePragma_append lined follows, found]
      rfl
    rw [List.append_assoc, piecesFrom_hit found' some_text, piecesFrom_hit found some_text, ih,
      List.cons_append, charBefore_append]
    by_cases some_rest : rest = []
    · exact .inl some_rest
    · exact .inr (lined.of_suffix (List.suffix_append covered rest) some_rest)

/-! ## Blank lines -/

/-- A scan depends on the character before it only as far as it begins a line. -/
theorem piecesFrom_start {before' : Option Char} (same : atLineStart before = atLineStart before')
    (s : Text) : piecesFrom featurePragma 0 before s = piecesFrom featurePragma 0 before' s := by
  cases s with
  | nil => rfl
  | cons c s =>
    rw [piecesFrom, piecesFrom, featurePragma_congr same]

/-- White space that ends in a line feed is no beginning of a pragma. -/
theorem featurePragma_blank (lined : Lined s) (blank : ∀ c ∈ s, isBlank c = true)
    (before : Option Char) (tail : Text) : featurePragma before (s ++ tail) = none := by
  have spaces : Lined (dropSpaces s) := lined.dropWhile (by decide)
  obtain ⟨c, t, left⟩ := List.exists_cons_of_ne_nil spaces.ne_nil
  have other : 'p' ≠ c := by
    rintro rfl
    have member := (dropSpaces_suffix s).subset (left ▸ List.mem_cons_self)
    exact absurd (blank 'p' member) (by decide)
  rw [featurePragma_eq, dropSpaces, lined.dropWhile_append (by decide), ← dropSpaces, left,
    afterSpaced?, after?_eq_none rfl rfl other]
  exact ite_self none

theorem found_spacing {blanks : Text} (h : Spacing blanks) (start : atLineStart before = true)
    (tail : Text) : found (piecesFrom featurePragma 0 before (blanks ++ tail)) =
      found (piecesFrom featurePragma 0 before tail) := by
  rcases h.lined with rfl | lined
  · rfl
  have last : charBefore before blanks = some '\n' := by
    obtain ⟨front, rfl⟩ := lined
    rw [charBefore_append]
    rfl
  have same : atLineStart (some '\n') = atLineStart before := start.symm
  rw [piecesFrom_quiet fun read left split some_left => ?_, found_append, found_chars,
    List.nil_append, last, piecesFrom_start same]
  have suffix : left <:+ blanks := ⟨read, split.symm⟩
  exact featurePragma_blank (lined.of_suffix suffix some_left)
    (fun c member => h.blank c (suffix.subset member)) _ tail

/-- What a text that ends in a line feed begins with stays the same when white space is put behind
it: nothing, a pragma within it, or a pragma that ends in what follows. -/
theorem featurePragma_append_blank (lined : Lined s) {blanks : Text}
    (blank : ∀ c ∈ blanks, isBlank c = true) (before : Option Char) (tail : Text) :
    (featurePragma before (s ++ tail) = none ∧
        featurePragma before (s ++ (blanks ++ tail)) = none) ∨
      ∃ feature covered, covered ≠ [] ∧
        ((∃ rest, s = covered ++ rest ∧
            featurePragma before (s ++ tail) = some (feature, rest ++ tail) ∧
            featurePragma before (s ++ (blanks ++ tail)) =
              some (feature, rest ++ (blanks ++ tail))) ∨
          ∃ rest, tail = covered ++ rest ∧
            featurePragma before (s ++ tail) = some (feature, rest) ∧
            featurePragma before (s ++ (blanks ++ tail)) = some (feature, rest)) := by
  simp only [featurePragma_start before]
  cases atLineStart before with
  | false => exact .inl ⟨rfl, rfl⟩
  | true =>
    simp only [if_true]
    cases outlook lined with
    | never none => exact .inl ⟨none _, none _⟩
    | @inside feature rest found =>
      obtain ⟨_, covered, some_text, split⟩ := featurePragma_anchored _ _ _ _ (found [])
      rw [← List.append_assoc, List.append_left_inj] at split
      exact .inr ⟨feature, covered, some_text, .inl ⟨rest, split, found _, found _⟩⟩
    | @beyond more _ read closed _ =>
      have same : Text.dropBlanks (blanks ++ tail) = Text.dropBlanks tail :=
        List.dropWhile_append_of_pos blank
      rw [read, read, same]
      cases ending : more (Text.dropBlanks tail) with
      | none => exact .inl ⟨rfl, rfl⟩
      | some hit =>
        obtain ⟨covered, some_text, split⟩ := closed _ _ _ ending
        obtain ⟨white, whole⟩ := dropBlanks_suffix tail
        refine .inr ⟨hit.1, white ++ covered, by simp [some_text], .inr ⟨hit.2, ?_, rfl, rfl⟩⟩
        rw [List.append_assoc, ← split, whole]

/-- White space between lines changes nothing about the pragmas that are found. -/
theorem found_append_spacing (before : Option Char) {blanks : Text} (spacing : Spacing blanks)
    (h : s = [] ∧ atLineStart before = true ∨ Lined s) (tail : Text) :
    found (piecesFrom featurePragma 0 before (s ++ (blanks ++ tail))) =
      found (piecesFrom featurePragma 0 before (s ++ tail)) := by
  -- Induction on what is left of the text before the white space.
  induction n : s.length using Nat.strongRecOn generalizing s before with
  | ind n ih =>
    rcases h with ⟨rfl, start⟩ | lined
    · exact found_spacing spacing start tail
    subst n
    rcases featurePragma_append_blank lined spacing.blank before tail with ⟨none, none'⟩ |
      ⟨feature, covered, some_text, ⟨rest, rfl, hit, hit'⟩ | ⟨rest, rfl, hit, hit'⟩⟩
    · obtain ⟨c, s, rfl⟩ := List.exists_cons_of_ne_nil lined.ne_nil
      rw [List.cons_append] at none none' ⊢
      rw [List.cons_append, piecesFrom_miss none, piecesFrom_miss none']
      exact ih s.length (by simp) _ (lined.left (s := [c]) before) rfl
    · have shorter : rest.length < (covered ++ rest).length := by
        rw [List.length_append]
        exact Nat.lt_add_of_pos_left (List.length_pos_iff.mpr some_text)
      rw [List.append_assoc] at hit hit' ⊢
      rw [List.append_assoc, piecesFrom_hit hit some_text, piecesFrom_hit hit' some_text]
      exact congrArg (feature :: ·) (ih rest.length shorter _ (lined.left before) rfl)
    · have near : s ++ (covered ++ rest) = s ++ covered ++ rest := (List.append_assoc ..).symm
      have far : s ++ (blanks ++ (covered ++ rest)) = s ++ (blanks ++ covered) ++ rest := by simp
      rw [near] at hit ⊢
      rw [far] at hit' ⊢
      rw [piecesFrom_hit hit (by simp [some_text]), piecesFrom_hit hit' (by simp [some_text]),
        charBefore_append, charBefore_append, charBefore_append, charBefore_eq_getLast? _ some_text,
        charBefore_eq_getLast? _ some_text]
      rfl

end Preamble

/-! ## Collapsing -/

namespace BlankLines

theorem lined_lineBreak (lineBreak : LineBreak) : Lined lineBreak.text := by
  cases lineBreak with
  | lf => exact ⟨[], rfl⟩
  | crlf => exact ⟨['\r'], rfl⟩

theorem spacing_lineBreak (lineBreak : LineBreak) {blanks : Text} (h : Spacing blanks) :
    Spacing (lineBreak.text ++ blanks) := by
  have blank : ∀ c ∈ lineBreak.text, isBlank c = true := by cases lineBreak <;> decide
  refine ⟨List.forall_mem_append.mpr ⟨blank, h.blank⟩, .inr ?_⟩
  rcases h.lined with rfl | later
  · rw [List.append_nil]
    exact lined_lineBreak lineBreak
  · exact later.append _

/-- A line of spaces and tabs in front of blank lines. -/
theorem spacing_line {read s rest : Text} (lineBreak : LineBreak)
    (spaces : ∀ c ∈ read, isSpaceOrTab c = true)
    (h : ∃ blanks, s = blanks ++ rest ∧ Spacing blanks) :
    ∃ blanks, read ++ (lineBreak.text ++ s) = blanks ++ rest ∧ Spacing blanks := by
  obtain ⟨blanks, rfl, spacing⟩ := h
  have some_text : lineBreak.text ++ blanks ≠ [] := by cases lineBreak <;> simp [LineBreak.text]
  obtain ⟨blank, lined⟩ := spacing_lineBreak lineBreak spacing
  refine ⟨read ++ (lineBreak.text ++ blanks), by simp, ?_, .inr ?_⟩
  · exact List.forall_mem_append.mpr
      ⟨fun c member => isBlank_of_isSpaceOrTab (spaces c member), blank⟩
  · exact (lined.resolve_left some_text).append read

/-- The blank lines that are dropped are white space. -/
theorem dropBlankLines_spacing (count : Nat) (s : Text) :
    ∃ blanks, s = blanks ++ (dropBlankLines count s s).2 ∧ Spacing blanks := by
  induction s using blankLines_induction generalizing count with
  | none s none =>
    rw [dropBlankLines_of_blankLines_eq_zero none]
    exact ⟨[], rfl, .nil⟩
  | line read lineBreak s spaces ih =>
    rw [dropBlankLines_line spaces]
    exact spacing_line lineBreak spaces (ih (count + 1))

theorem spacing_of_run {before : Option Char} {s rest : Text} {lineBreak : LineBreak}
    (h : run before s = some (lineBreak, rest)) :
    ∃ blanks, s = lineBreak.text ++ (blanks ++ rest) ∧ Spacing blanks := by
  rw [run_eq, Option.bind_eq_some_iff] at h
  obtain ⟨⟨found, after⟩, taken, h⟩ := h
  rw [Option.ite_none_right_eq_some] at h
  obtain ⟨rfl, rfl⟩ := Prod.mk.inj (Option.some.inj h.2)
  obtain ⟨blanks, split, spacing⟩ := dropBlankLines_spacing 0 after
  exact ⟨blanks, by rw [takeBreak?_eq_some taken, ← split], spacing⟩

end BlankLines

/-- Collapsing runs of blank lines changes nothing about the feature pragmas that are found. -/
theorem hits_collapseBlankLines (s : Text) :
    hits Preamble.featurePragma (collapseBlankLines s) = hits Preamble.featurePragma s := by
  suffices behind : ∀ front, hits Preamble.featurePragma (front ++
      (piecesFrom BlankLines.run 0 none s).flatMap
        (replacePiece fun b => b.text ++ b.text ++ b.text)) =
      hits Preamble.featurePragma (front ++ s) by
    rw [collapseBlankLines, replace_eq]
    exact behind []
  induction (none : Option Char), s using scan_induction BlankLines.run_anchored with
  | done before => exact fun front => rfl
  | miss before c s none ih =>
    intro front
    rw [piecesFrom_miss none]
    simpa [replacePiece] using ih (front ++ [c])
  | hit before covered rest lineBreak _ some_text hit ih =>
    intro front
    obtain ⟨blanks, split, spacing⟩ := BlankLines.spacing_of_run hit
    have breaks : Spacing (lineBreak.text ++ (lineBreak.text ++ [])) :=
      BlankLines.spacing_lineBreak _ (BlankLines.spacing_lineBreak _ .nil)
    have lined : Lined (front ++ lineBreak.text) := (BlankLines.lined_lineBreak lineBreak).append _
    have dropped := Preamble.found_append_spacing none spacing (.inr lined) rest
    have put := Preamble.found_append_spacing none breaks (.inr lined) rest
    rw [piecesFrom_hit hit some_text, List.flatMap_cons, ← List.append_assoc, ih, split]
    calc hits Preamble.featurePragma
          (front ++ (lineBreak.text ++ lineBreak.text ++ lineBreak.text) ++ rest)
      _ = hits Preamble.featurePragma
          (front ++ lineBreak.text ++ (lineBreak.text ++ (lineBreak.text ++ []) ++ rest)) := by simp
      _ = hits Preamble.featurePragma (front ++ lineBreak.text ++ rest) := put
      _ = hits Preamble.featurePragma (front ++ lineBreak.text ++ (blanks ++ rest)) := dropped.symm
      _ = hits Preamble.featurePragma (front ++ (lineBreak.text ++ (blanks ++ rest))) := by
        rw [List.append_assoc]

end TokenForge

import TokenForge.Proofs.Version.Conjunction
import TokenForge.Proofs.Version.Layout

/-!
# Reading pragmas in any layout

A comparator in its normal form is read as its operator and numbers, unless a number has too many
digits (`readComparator_canonical`).  A range is cut at every space, so that a tab or a second
space between two comparators leaves something that is no comparator
(`readable_of_isComparator`).

A source of such pragmas accepts the versions that keep all comparators if its pragmas are
`Readable`.  Otherwise its range is malformed.
-/

namespace TokenForge

namespace Pragma

open Text
open Version (Bound Comparator Operator)

/-! ## What comparators ask for -/

/-- The operator of a sign. -/
def Sign.operator : Sign → Operator
  | caret => .caret
  | tilde => .tilde
  | equal => .exact
  | less => .less
  | atMost => .atMost
  | greater => .greater
  | atLeast => .atLeast

namespace Condition

def operator (c : Condition) : Operator := c.sign.elim .exact fun sign => sign.1.operator

/-- The comparator that is written. -/
def comparator (c : Condition) : Comparator :=
  ⟨c.operator, some c.major.value, some c.minor.value, some c.patch.value, [], []⟩

/-- Whether a version keeps a comparator. -/
def accepts (c : Condition) (v : Version) : Bool := c.comparator.bounds.all (·.accepts v)

/-- No number of a comparator has more digits than a numeral may have. -/
def Short (c : Condition) : Prop :=
  ∀ n ∈ [c.major.value, c.minor.value, c.patch.value], (ofNat n).length ≤ numeralLimit

end Condition

namespace Layout

/-- Whether a version keeps the comparators of a pragma. -/
def accepts (l : Layout) (v : Version) : Bool := l.conditions.all (·.accepts v)

/-- The range of a pragma can be read. -/
structure Readable (l : Layout) : Prop where
  single : l.Single
  short : ∀ c ∈ l.conditions, c.Short

end Layout

end Pragma

namespace Version

open Text
open Pragma (Condition Layout Sign Spaces1 digits dotted bodyChars closedChars ofNat_subset series
  series_ne_nil series_subset stripped_of_subset stripped_series)

/-! ## Reading comparators -/

section Fields

variable {s : Text}

theorem takeOperator_digit {d : Char} (h : d ∈ digits) (c : Condition) (s : Text) :
    takeOperator (c.signText ++ d :: s) = (c.operator, d :: s) := by
  have other : ∀ d ∈ digits, d ≠ '<' ∧ d ≠ '>' ∧ d ≠ '=' ∧ d ≠ '^' ∧ d ≠ '~' := by decide
  obtain ⟨less, greater, equal, caret, tilde⟩ := other d h
  rw [Condition.signText, Condition.operator]
  rcases c.sign with _ | ⟨sign, _⟩
  · simp [takeOperator, less, greater, equal, caret, tilde]
  · show takeOperator (sign.text ++ d :: s) = (sign.operator, d :: s)
    cases sign <;> simp [takeOperator, Sign.text, Sign.operator, equal]

theorem takeField?_ofNat (n : Nat) (stop : Stops isAsciiDigit s) :
    takeField? (ofNat n ++ s) = some (some (ofNat n), s) := by
  by_cases zero : n = 0
  · subst zero
    rfl
  · have number := isAsciiDigit_ofNat n
    have letters : ∀ d ∈ digits, d ≠ 'x' ∧ d ≠ 'X' ∧ d ≠ '*' := by decide
    have wild := fun d member => letters d (ofNat_subset n member)
    have taken := takeWhile_append_of_stops number stop
    have left := dropWhile_append_of_stops number stop
    obtain ⟨d, ds, same, nonzero⟩ := ofNat_eq_cons zero
    rw [same] at number wild taken left ⊢
    rw [List.cons_append] at taken left ⊢
    rw [takeField?, if_neg (by simpa using wild d (.head _)), if_neg nonzero,
      if_pos (number d (.head _)), taken, left]

theorem takeTail_of_stops {mark : Char} (stop : Stops (· == mark) s) :
    takeTail mark s = ([], s) := by
  cases s with
  | nil => rfl
  | cons c s => rw [takeTail, if_neg (by simpa using stop)]

/-- The fields of a comparator in its normal form, in front of anything that continues none of
them. -/
theorem readFields?_canonical (c : Condition) (digit : Stops isAsciiDigit s)
    (hyphen : Stops (· == '-') s) (plus : Stops (· == '+') s) :
    readFields? (c.canonical ++ s) = if s = [] ∨ s = ['\n'] then
      some (c.operator, [some (ofNat c.major.value), some (ofNat c.minor.value),
        some (ofNat c.patch.value)], [], []) else none := by
  have split : c.canonical ++ s = c.signText ++ (ofNat c.major.value ++ '.' ::
      (ofNat c.minor.value ++ '.' :: (ofNat c.patch.value ++ s))) := by
    simp [Condition.canonical, dotted]
  have point (t : Text) : Stops isAsciiDigit ('.' :: t) := stops_cons.mpr (by decide)
  have opened : takeOperator (c.canonical ++ s) = (c.operator, ofNat c.major.value ++ '.' ::
      (ofNat c.minor.value ++ '.' :: (ofNat c.patch.value ++ s))) := by
    have first := ofNat_subset c.major.value
    obtain ⟨d, ds, same⟩ := List.exists_cons_of_ne_nil (ofNat_ne_nil c.major.value)
    rw [same] at first split ⊢
    rw [split]
    exact takeOperator_digit (first (.head _)) c _
  unfold readFields?
  extract_lets behind
  have unmarked : behind = c.canonical ++ s := by
    have other : ∀ d ∈ closedChars, d ≠ 'v' := by decide
    have first := c.canonical_subset
    obtain ⟨d, ds, same⟩ := List.exists_cons_of_ne_nil c.canonical_ne_nil
    rw [same] at first
    simp only [behind, same, List.cons_append]
    split
    · next marked => exact absurd (List.cons.inj marked).1 (other d (first (.head _)))
    · rfl
  rw [unmarked, opened]
  simp only [takeField?_ofNat _ (point _), takeNextField?, takeField?_ofNat _ digit,
    takeTail_of_stops hyphen, takeTail_of_stops plus, Option.bind_eq_bind, Option.bind_some,
    Option.pure_def]

end Fields

/-- A field is read, unless it has too many digits. -/
theorem fieldValue_ofNat {n : Nat} {value : Option Nat} :
    fieldValue (some (ofNat n)) = .ok value ↔
      (ofNat n).length ≤ numeralLimit ∧ some n = value := by
  rw [fieldValue, toNat?_ofNat]
  by_cases short : (ofNat n).length ≤ numeralLimit
  · rw [if_pos short]
    simp [short]
  · rw [if_neg short]
    simp [short]

theorem comparator_canonical {c : Condition} {k : Comparator} :
    comparator c.operator (some (ofNat c.major.value)) (some (ofNat c.minor.value))
        (some (ofNat c.patch.value)) [] [] = .ok k ↔ c.Short ∧ c.comparator = k := by
  simp only [comparator, bind_eq_ok, fieldValue_ofNat, ite_self, Condition.Short,
    List.forall_mem_cons]
  constructor
  · rintro ⟨_, ⟨major, rfl⟩, _, ⟨minor, rfl⟩, _, ⟨patch, rfl⟩, same⟩
    exact ⟨⟨major, minor, patch, List.forall_mem_nil _⟩, Except.ok.inj same⟩
  · rintro ⟨⟨major, minor, patch, _⟩, rfl⟩
    exact ⟨_, ⟨major, rfl⟩, _, ⟨minor, rfl⟩, _, ⟨patch, rfl⟩, rfl⟩

/-- A comparator in its normal form is read, unless a number has too many digits. -/
theorem readComparator_canonical {c : Condition} {bounds : List Bound} :
    readComparator .malformed c.canonical = .ok bounds ↔
      c.Short ∧ c.comparator.bounds = bounds := by
  have read := readFields?_canonical (s := []) c (stops_nil _) (stops_nil _) (stops_nil _)
  rw [List.append_nil, if_pos (.inl rfl)] at read
  have valid : c.comparator.isValid = true := rfl
  simp only [readComparator, read, bind_eq_ok, comparator_canonical]
  constructor
  · rintro ⟨k, ⟨short, rfl⟩, same⟩
    rw [if_pos valid] at same
    exact ⟨short, Except.ok.inj same⟩
  · rintro ⟨short, rfl⟩
    exact ⟨c.comparator, ⟨short, rfl⟩, if_pos valid⟩

theorem eq_malformed_of_fieldValue {field : Option Text} {fault : Range.Fault}
    (h : fieldValue field = .error fault) : fault = .malformed := by
  unfold fieldValue at h
  split at h
  · cases h
  · split at h
    · cases h
    · exact (Except.error.inj h).symm

/-- A text that is read as no comparator is malformed. -/
theorem eq_malformed_of_readComparator {s : Text} {fault : Range.Fault}
    (h : readComparator .malformed s = .error fault) : fault = .malformed := by
  unfold readComparator at h
  split at h
  · simp only [comparator, bind_eq_error, bind_eq_ok] at h
    rcases h with (first | ⟨_, _, second | ⟨_, _, third | ⟨_, _, impossible⟩⟩⟩) | ⟨k, _, invalid⟩
    · exact eq_malformed_of_fieldValue first
    · exact eq_malformed_of_fieldValue second
    · exact eq_malformed_of_fieldValue third
    · cases impossible
    · split at invalid
      · cases invalid
      · exact (Except.error.inj invalid).symm
  · exact (Except.error.inj h).symm

/-! ## Reading ranges -/

/-- A text is read as a comparator. -/
def IsComparator (s : Text) : Prop := ∃ bounds, readComparator .malformed s = .ok bounds

theorem not_isComparator {s : Text} (h : readFields? s = none) : ¬ IsComparator s := by
  rintro ⟨bounds, read⟩
  rw [readComparator, h] at read
  cases read

theorem not_isComparator_nil : ¬ IsComparator [] := not_isComparator rfl

theorem not_isComparator_tab (s : Text) : ¬ IsComparator ('\t' :: s) := not_isComparator rfl

theorem not_isComparator_canonical_tab (c : Condition) (s : Text) :
    ¬ IsComparator (c.canonical ++ '\t' :: s) := by
  refine not_isComparator ?_
  rw [readFields?_canonical c (stops_cons.mpr (by decide)) (stops_cons.mpr (by decide))
    (stops_cons.mpr (by decide)), if_neg (by simp)]

theorem space_not_mem_canonical (c : Condition) : ' ' ∉ c.canonical :=
  fun member => absurd (c.canonical_subset member) (by decide)

theorem splitOn_canonical (c : Condition) : splitOn ' ' c.canonical = [c.canonical] :=
  splitOn_of_not_mem (space_not_mem_canonical c)

theorem exists_block_tab {s : Text} (h : ' ' ∉ s) (t : Text) :
    ∃ more, s ++ '\t' :: more ∈ splitOn ' ' (s ++ '\t' :: t) := by
  have single : ' ' ∉ s ++ ['\t'] := by
    rw [List.mem_append, not_or]
    exact ⟨h, by decide⟩
  obtain ⟨more, blocks, cut⟩ := exists_splitOn_append single t
  rw [List.append_assoc, List.append_assoc] at cut
  exact ⟨more, cut ▸ .head _⟩

/-- If a range is read, single spaces stand between its comparators, and their numbers are not too
long. -/
theorem readable_of_isComparator (c : Condition) (more : List (Spaces1 × Condition))
    (h : ∀ block ∈ splitOn ' ' (series Condition.canonical c more), IsComparator block) :
    (∀ next ∈ more, next.1.1.1 = [' ']) ∧ ∀ d ∈ c :: more.map Prod.snd, d.Short := by
  induction more generalizing c with
  | nil =>
    obtain ⟨bounds, read⟩ := h c.canonical (by rw [series, splitOn_canonical]; exact .head _)
    have short := (readComparator_canonical.mp read).1
    exact ⟨List.forall_mem_nil _, List.forall_mem_singleton.mpr short⟩
  | cons next more ih =>
    obtain ⟨⟨⟨gap, spaces⟩, some_gap⟩, next⟩ := next
    obtain ⟨g, gap, rfl⟩ := List.exists_cons_of_ne_nil some_gap
    rw [series] at h
    rcases isSpaceOrTab_iff.mp (spaces g (.head _)) with rfl | rfl
    · rw [List.cons_append, splitOn_append, splitOn_canonical] at h
      obtain ⟨⟨_, read⟩, rest⟩ := List.forall_mem_cons.mp h
      have first := (readComparator_canonical.mp read).1
      cases gap with
      | nil =>
        obtain ⟨single, short⟩ := ih next rest
        exact ⟨List.forall_mem_cons.mpr ⟨rfl, single⟩, List.forall_mem_cons.mpr ⟨first, short⟩⟩
      | cons g gap =>
        -- Whatever follows the first space, the next block begins with it.
        rcases isSpaceOrTab_iff.mp (spaces g (.tail _ (.head _))) with rfl | rfl
        · exact absurd (rest [] (.head _)) not_isComparator_nil
        · obtain ⟨_, block⟩ := exists_block_tab List.not_mem_nil
            (gap ++ series Condition.canonical next more)
          exact absurd (rest _ block) (not_isComparator_tab _)
    · obtain ⟨_, block⟩ := exists_block_tab (space_not_mem_canonical c)
        (gap ++ series Condition.canonical next more)
      exact absurd (h _ block) (not_isComparator_canonical_tab c _)

theorem readable_of_blocks {l : Layout}
    (h : ∀ block ∈ splitOn ' ' (l.body Condition.canonical), IsComparator block) : l.Readable := by
  obtain ⟨single, short⟩ := readable_of_isComparator l.first l.more h
  exact ⟨single, short⟩

/-! ### Readable pragmas -/

theorem prerelease_nextMinor (v : Version) : v.nextMinor.prerelease = [] := by
  rw [nextMinor]
  split <;> rfl

/-- Comparators of complete versions ask for no prereleases. -/
theorem released_bounds (c : Condition) : ∀ b ∈ c.comparator.bounds, b.target.prerelease = [] := by
  have span (high : Version) (released : high.prerelease = []) :
      ∀ b ∈ [bound .from c.comparator.target, bound .below high], b.target.prerelease = [] :=
    List.forall_mem_cons.mpr ⟨rfl, List.forall_mem_singleton.mpr released⟩
  have single (relation : Relation) :
      ∀ b ∈ [bound relation c.comparator.target], b.target.prerelease = [] :=
    List.forall_mem_singleton.mpr rfl
  have minor : c.comparator.minor ≠ none := nofun
  have patch : c.comparator.patch ≠ none := nofun
  have major : c.comparator.major ≠ none := nofun
  simp only [Comparator.bounds, if_neg minor, if_neg patch, if_neg major]
  -- `^` and `~` ask for two bounds, the other operators for one.
  split
  · split
    · exact span _ rfl
    · split
      · exact span _ (prerelease_nextMinor _)
      · exact span _ rfl
  · exact span _ (prerelease_nextMinor _)
  all_goals exact single _

theorem body_subset (l : Layout) : l.body Condition.canonical ⊆ bodyChars := by
  have more : closedChars ⊆ bodyChars := List.subset_append_right _ _
  exact series_subset (fun c => List.Subset.trans c.canonical_subset more) _ _

/-- Texts of these characters hold neither a choice nor a hyphen. -/
theorem not_infix_of_subset {s : Text} (h : s ⊆ bodyChars) :
    ¬ "||".toList <:+: s ∧ ¬ " - ".toList <:+: s := by
  have choice : '|' ∉ bodyChars := by decide
  have hyphen : '-' ∉ bodyChars := by decide
  exact ⟨not_infix_of_not_mem (.head _) fun member => choice (h member),
    not_infix_of_not_mem (.tail _ (.head _)) fun member => hyphen (h member)⟩

theorem body_ne_nil (l : Layout) : l.body Condition.canonical ≠ [] :=
  series_ne_nil Condition.canonical_ne_nil _ _

theorem stripped_body (l : Layout) : Stripped (l.body Condition.canonical) :=
  stripped_series (fun c => stripped_of_subset c.canonical_subset) Condition.canonical_ne_nil _ _

/-- The range of a readable pragma is its comparators. -/
theorem readRange_body {l : Layout} (h : l.Readable) : readRange (l.body Condition.canonical) =
    .ok [l.conditions.flatMap fun c => c.comparator.bounds] := by
  have cut : splitOn ' ' (l.body Condition.canonical) = l.conditions.map Condition.canonical := by
    rw [l.body_eq_iff.mpr h.single, splitOn_intercalate ' ' (by simp [Layout.conditions]),
      List.flatMap_map]
    simp only [splitOn_canonical]
    exact (List.map_eq_flatMap).symm
  have blocks := mapM_map_eq_ok fun c member =>
    readComparator_canonical.mpr ⟨h.short c member, rfl⟩
  obtain ⟨noChoice, noHyphen⟩ := not_infix_of_subset (body_subset l)
  rw [readRange_eq noChoice, readGroup_eq (stripped_body l).strip_eq (body_ne_nil l) noHyphen, cut,
    blocks]
  refine congrArg Except.ok (alternatives_of_released fun b member => ?_)
  obtain ⟨c, _, inside⟩ := List.mem_flatMap.mp member
  exact released_bounds c b inside

theorem simple_body {l : Layout} (h : l.Readable) : Simple (l.body Condition.canonical) where
  noChoice := (not_infix_of_subset (body_subset l)).1
  noHyphen := (not_infix_of_subset (body_subset l)).2
  single := ⟨_, readRange_body h⟩

theorem liesIn_body {l : Layout} (h : l.Readable) (v : Version) :
    liesIn v (l.body Condition.canonical) = l.accepts v := by
  rw [liesIn, readRange_body h]
  simp [Range.accepts, Layout.accepts, Condition.accepts, List.all_flatMap]

/-! ### Malformed ranges -/

theorem readComparator_of_not {s : Text} (h : ¬ IsComparator s) :
    readComparator .malformed s = .error .malformed := by
  cases read : readComparator .malformed s with
  | ok bounds => exact absurd ⟨bounds, read⟩ h
  | error fault => rw [eq_malformed_of_readComparator read]

/-- Joined ranges are malformed if the pragma of one of them is not readable. -/
theorem readRange_malformed {parts : List Text}
    (bodies : ∀ part ∈ parts, ∃ l : Layout, l.body Condition.canonical = part) {l : Layout}
    (member : l.body Condition.canonical ∈ parts) (h : ¬ l.Readable) :
    readRange (List.intercalate [' '] parts) = .error .malformed := by
  have some_part : parts ≠ [] := List.ne_nil_of_mem member
  have stripped : ∀ part ∈ parts, Stripped part ∧ part ≠ [] := by
    intro part inside
    obtain ⟨l, rfl⟩ := bodies part inside
    exact ⟨stripped_body l, body_ne_nil l⟩
  have subset : List.intercalate [' '] parts ⊆ bodyChars := by
    intro c inside
    rcases mem_intercalate inside with space | ⟨part, among, inside⟩
    · rw [List.mem_singleton.mp space]
      decide
    · obtain ⟨l, rfl⟩ := bodies part among
      exact body_subset l inside
  obtain ⟨noChoice, noHyphen⟩ := not_infix_of_subset subset
  obtain ⟨block, inside, broken⟩ : ∃ block ∈ splitOn ' ' (l.body Condition.canonical),
      ¬ IsComparator block := by
    by_contra all
    push Not at all
    exact h (readable_of_blocks all)
  have failed : (parts.flatMap (splitOn ' ')).mapM (readComparator .malformed) =
      .error .malformed :=
    mapM_eq_error (fun _ _ => eq_malformed_of_readComparator)
      (List.mem_flatMap.mpr ⟨_, member, inside⟩) (readComparator_of_not broken)
  have some_text := intercalate_ne_nil [' '] some_part fun part inside => (stripped part inside).2
  rw [readRange_eq noChoice, readGroup_eq (stripped_intercalate [' '] stripped).strip_eq some_text
    noHyphen, splitOn_intercalate ' ' some_part, failed]
  rfl

/-! ## Sources of pragmas in any layout -/

variable {source : Text} {layouts : List Layout}

theorem rangeOfLine?_of_not {line : Text} (h : ¬ Pragma.isVersionLine line = true) :
    Pragma.rangeOfLine? line = none := by
  simp only [Pragma.isVersionLine, Bool.and_eq_true, occursIn, not_and, Bool.not_eq_true,
    Option.isSome_eq_false_iff, Option.isNone_iff_eq_none] at h
  simp only [Pragma.rangeOfLine?]
  split
  · next opens => rw [h opens, Option.map_none]
  · rfl

/-- The ranges of a source are those of its version pragmas. -/
theorem ranges_of_layouts
    (lines : (splitOn '\n' source).filter Pragma.isVersionLine = layouts.map Layout.text) :
    Pragma.ranges source = layouts.map fun l => l.body Condition.canonical := by
  have kept : Pragma.ranges source =
      ((splitOn '\n' source).filter Pragma.isVersionLine).filterMap Pragma.rangeOfLine? := by
    rw [Pragma.ranges, List.filterMap_filter]
    refine List.filterMap_congr fun line _ => ?_
    split
    · rfl
    · next other => exact rangeOfLine?_of_not other
  have each : Pragma.rangeOfLine? ∘ Layout.text = some ∘ fun l => l.body Condition.canonical :=
    funext Pragma.rangeOfLine?_text
  rw [kept, lines, List.filterMap_map, each, List.filterMap_eq_map]

/-- A version lies in the ranges of readable pragmas if it keeps their comparators. -/
theorem all_solid_layouts
    (lines : (splitOn '\n' source).filter Pragma.isVersionLine = layouts.map Layout.text)
    (readable : ∀ l ∈ layouts, l.Readable) (v : Version) :
    (Pragma.solid source).all (liesIn v) = layouts.all (·.accepts v) := by
  have ranges := ranges_of_layouts lines
  rw [Bool.eq_iff_iff, List.all_eq_true, List.all_eq_true]
  constructor
  · intro all l member
    rw [← liesIn_body (readable l member)]
    exact all _ (Pragma.mem_solid.mpr ⟨ranges ▸ List.mem_map_of_mem member, body_ne_nil l⟩)
  · intro all range member
    obtain ⟨l, inside, rfl⟩ := List.mem_map.mp (ranges ▸ (Pragma.mem_solid.mp member).1)
    rw [liesIn_body (readable l inside)]
    exact all l inside

/-- Version pragmas in any layout.  The range of a pragma is its comparators with what stands
between them, which is the normal form if and only if this is a single space each time.  A source
with such pragmas accepts, of versions that are read, those that keep all comparators, if its
pragmas are readable.  If one is not, its range is malformed. -/
theorem acceptedBy_layouts {texts : List Text} {versions : List Version}
    (lines : (splitOn '\n' source).filter Pragma.isVersionLine = layouts.map Layout.text)
    (some_pragma : layouts ≠ []) (read : readAll texts = .ok versions) :
    (∀ l : Layout, Pragma.rangeOfLine? l.text = some (l.body Condition.canonical) ∧
      (l.body Condition.canonical =
        List.intercalate [' '] (l.conditions.map Condition.canonical) ↔ l.Single)) ∧
    ((∀ l ∈ layouts, l.Readable) → acceptedBy source texts =
      .ok (((sortBy atMost versions).filter fun v => layouts.all (·.accepts v)).map render)) ∧
    ((∃ l ∈ layouts, ¬ l.Readable) → acceptedBy source texts = .error (.range .malformed)) := by
  have ranges := ranges_of_layouts lines
  have bodies : ∀ part ∈ Pragma.joined source, ∃ l : Layout, l.body Condition.canonical = part := by
    intro part member
    rw [Pragma.mem_joined, ranges] at member
    obtain ⟨l, _, same⟩ := List.mem_map.mp member
    exact ⟨l, same⟩
  refine ⟨fun l => ⟨Pragma.rangeOfLine?_text l, l.body_eq_iff⟩, fun readable => ?_, ?_⟩
  · obtain ⟨l, member⟩ := List.exists_mem_of_ne_nil _ some_pragma
    have simple : ∀ range ∈ Pragma.ranges source, Simple range := by
      rw [ranges]
      exact List.forall_mem_map.mpr fun l member => simple_body (readable l member)
    obtain ⟨text, bounds, asked, some_text, readRange, lies⟩ := exists_range_of_simple simple
      ⟨_, ranges ▸ List.mem_map_of_mem member, body_ne_nil l⟩
    have accepts : Range.accepts [bounds] = fun v => layouts.all (·.accepts v) := by
      funext v
      have group : Range.accepts [bounds] v = bounds.all (·.accepts v) := Bool.or_false _
      rw [group, lies, all_solid_layouts lines readable]
    rw [acceptedBy_of_range asked some_text readRange read, accepts]
  · rintro ⟨l, member, broken⟩
    have asked : l.body Condition.canonical ∈ Pragma.ranges source :=
      ranges ▸ List.mem_map_of_mem member
    have joined := Pragma.mem_joined.mpr asked
    refine acceptedBy_of_fault ?_ ?_ (readRange_malformed bodies joined broken)
    · rw [Pragma.rangeOfSource?_eq, if_neg (List.ne_nil_of_mem asked)]
    · refine intercalate_ne_nil [' '] (List.ne_nil_of_mem joined) fun part inside => ?_
      obtain ⟨l, rfl⟩ := bodies part inside
      exact body_ne_nil l

/-! ## Two layouts of one pragma -/

/-- One space. -/
def oneSpace : Spaces1 := ⟨⟨[' '], by decide⟩, by decide⟩

/-- Two spaces. -/
def twoSpaces : Spaces1 := ⟨⟨[' ', ' '], by decide⟩, by decide⟩

/-- From 0.4.22, written with a space behind the operator and a zero too many. -/
def lowEnd : Condition := ⟨some (.atLeast, oneSpace.1), ⟨0, 0⟩, ⟨1, 4⟩, ⟨0, 22⟩⟩

/-- Below 0.9.0. -/
def highEnd : Condition := ⟨some (.less, Flatten.noSpaces), ⟨0, 0⟩, ⟨0, 9⟩, ⟨0, 0⟩⟩

/-- A pragma that asks for both. -/
def fromTo (between : Spaces1) : Layout where
  indent := Flatten.noSpaces
  gap := oneSpace
  afterName := oneSpace.1
  first := lowEnd
  more := [(between, highEnd)]
  beforeEnd := Flatten.noSpaces
  rest := []

/-- With one space between its comparators a pragma accepts a version.  With two its range is
malformed. -/
theorem acceptedBy_oneSpace_twoSpaces :
    acceptedBy "pragma solidity >= 0.04.22 <0.9.0;\n" ["0.8.0"] = .ok ["0.8.0".toList] ∧
      acceptedBy "pragma solidity >= 0.04.22  <0.9.0;\n" ["0.8.0"] =
        .error (.range .malformed) := by
  have read : readAll ["0.8.0"] = .ok [Version.release 0 8 0] := rfl
  have short : ∀ c ∈ [lowEnd, highEnd], c.Short := by
    unfold Condition.Short
    decide
  have readable : ∀ l ∈ [fromTo oneSpace], l.Readable :=
    List.forall_mem_singleton.mpr ⟨List.forall_mem_singleton.mpr rfl, short⟩
  have broken : ¬ (fromTo twoSpaces).Readable := by
    intro h
    exact absurd (h.single _ (.head _)) (by decide)
  have one : (splitOn '\n' "pragma solidity >= 0.04.22 <0.9.0;\n").filter Pragma.isVersionLine =
      [fromTo oneSpace].map Layout.text := by decide
  have two : (splitOn '\n' "pragma solidity >= 0.04.22  <0.9.0;\n").filter Pragma.isVersionLine =
      [fromTo twoSpaces].map Layout.text := by decide
  constructor
  · obtain ⟨_, accepted, _⟩ := acceptedBy_layouts one (List.cons_ne_nil _ _) read
    rw [accepted readable]
    decide
  · obtain ⟨_, _, malformed⟩ := acceptedBy_layouts two (List.cons_ne_nil _ _) read
    exact malformed ⟨_, .head _, broken⟩

end Version

end TokenForge

import Mathlib.Data.List.Nodup
import TokenForge.Proofs.Text.Lines
import TokenForge.Proofs.Version.Accepted
import TokenForge.Proofs.Version.Pragma

/-!
# Several pragmas

The ranges of a source are joined to one text.  Which ranges there are determines this text, not
their order and not how often each is there (`rangeOfSource?_congr`).

A range is `Simple` if it is a list of comparators without prereleases: neither a choice nor a
range with a hyphen.  Joined simple ranges are read as the comparators of all of them, so that a
release is accepted if and only if it lies in every range, and further pragmas accept no more.
This does not hold of choices, of which the last alternative of one range and the first of the
next become one.
-/

namespace TokenForge

/-! ## Joined texts -/

namespace Text

theorem not_infix_of_not_mem {c : Char} {word s : Text} (inside : c ∈ word) (other : c ∉ s) :
    ¬ word <:+: s := fun h => other (h.subset inside)

/-- A word without the separator does not lie across it. -/
theorem infix_of_infix_append {sep : Char} {word s t : Text} (single : sep ∉ word)
    (some_word : word ≠ []) (h : word <:+: s ++ sep :: t) : word <:+: s ∨ word <:+: t := by
  obtain ⟨read, left, split⟩ := h
  rw [List.append_assoc] at split
  rcases List.append_eq_append_iff.mp split with ⟨part, rfl, behind⟩ | ⟨part, rfl, behind⟩
  · rcases List.append_eq_append_iff.mp behind with ⟨more, rfl, _⟩ | ⟨more, rfl, later⟩
    · exact .inl ⟨read, more, by rw [List.append_assoc]⟩
    · cases more with
      | nil => exact .inl ⟨read, [], by simp⟩
      | cons c more =>
        obtain ⟨rfl, _⟩ := List.cons.inj later
        exact absurd (List.mem_append_right _ (.head _)) single
  · cases part with
    | nil =>
      obtain ⟨c, rest, rfl⟩ := List.exists_cons_of_ne_nil some_word
      obtain ⟨rfl, _⟩ := List.cons.inj behind
      exact absurd (.head _) single
    | cons c part =>
      obtain ⟨_, same⟩ := List.cons.inj behind
      exact .inr ⟨part, left, by rw [List.append_assoc]; exact same.symm⟩

theorem infix_of_infix_intercalate {sep : Char} {word : Text} (single : sep ∉ word)
    (some_word : word ≠ []) {parts : List Text} (h : word <:+: List.intercalate [sep] parts) :
    ∃ part ∈ parts, word <:+: part := by
  induction parts with
  | nil => exact absurd (List.infix_nil.mp h) some_word
  | cons part parts ih =>
    cases parts with
    | nil => exact ⟨part, .head _, by simpa using h⟩
    | cons next parts =>
      rw [List.intercalate_cons_cons, List.append_assoc, List.singleton_append] at h
      rcases infix_of_infix_append single some_word h with here | later
      · exact ⟨part, .head _, here⟩
      · obtain ⟨part, member, inside⟩ := ih later
        exact ⟨part, .tail _ member, inside⟩

/-- A text in which a word does not stand is not cut at it. -/
theorem splitOnText_of_absent {sep s : Text} (h : ¬ sep <:+: s) :
    splitOnText sep 0 s = [s] := by
  induction s with
  | nil => rfl
  | cons c s ih =>
    have here : after? sep (c :: s) = none := by
      rw [Option.eq_none_iff_forall_ne_some]
      intro rest read
      exact h ⟨[], rest, (after?_eq_some_iff.mp read).symm⟩
    rw [splitOnText, here, ih fun inside => h (inside.trans (List.suffix_cons c s).isInfix)]

theorem eq_of_order_eq {s t : Text} (h : order s t = .eq) : s = t := by
  induction s generalizing t with
  | nil =>
    cases t with
    | nil => rfl
    | cons d t => cases h
  | cons c s ih =>
    cases t with
    | nil => cases h
    | cons d t =>
      rw [order, Ordering.then_eq_eq, compare_eq_iff_eq] at h
      rw [Char.toNat_inj.mp h.1, ih h.2]

theorem le_iff {s t : Text} : le s t = true ↔ (order s t).isLE = true := by
  rw [le]
  cases order s t <;> decide

theorem le_total (s t : Text) : le s t = true ∨ le t s = true := by
  rw [le_iff, le_iff, @Std.OrientedCmp.eq_swap _ order _ s t]
  cases order t s <;> decide

theorem le_trans {s t u : Text} (h : le s t = true) (h' : le t u = true) : le s u = true := by
  rw [le_iff] at h h' ⊢
  exact Std.TransCmp.isLE_trans h h'

theorem le_antisymm {s t : Text} (h : le s t = true) (h' : le t s = true) : s = t := by
  rw [le_iff] at h h'
  exact eq_of_order_eq (Std.OrientedCmp.isLE_antisymm h h')

end Text

namespace Pragma

open Text

/-! ## Which ranges there are -/

theorem mem_foldl_kept {texts kept : List Text} {t : Text} :
    t ∈ texts.foldl (fun kept t => if t ∈ kept then kept else kept ++ [t]) kept ↔
      t ∈ kept ∨ t ∈ texts := by
  induction texts generalizing kept with
  | nil => simp
  | cons u texts ih =>
    rw [List.foldl_cons, ih]
    split
    · next known =>
      rw [List.mem_cons, ← or_assoc, or_iff_left_of_imp fun same : t = u => same ▸ known]
    · simp [or_assoc]

theorem mem_distinct {texts : List Text} {t : Text} : t ∈ distinct texts ↔ t ∈ texts := by
  rw [distinct, mem_foldl_kept]
  simp

theorem nodup_foldl_kept {texts kept : List Text} (h : kept.Nodup) :
    (texts.foldl (fun kept t => if t ∈ kept then kept else kept ++ [t]) kept).Nodup := by
  induction texts generalizing kept with
  | nil => exact h
  | cons u texts ih =>
    rw [List.foldl_cons]
    refine ih ?_
    split
    · exact h
    · next new => exact h.append (List.nodup_singleton u) (by simpa using new)

theorem nodup_distinct (texts : List Text) : (distinct texts).Nodup := nodup_foldl_kept .nil

/-- The ranges of a source in the order in which they are joined. -/
def joined (source : Text) : List Text := sortBy Text.le (distinct (ranges source))

variable {source other : Text}

theorem mem_joined {range : Text} : range ∈ joined source ↔ range ∈ ranges source := by
  rw [joined, (sortBy_perm _ _).mem_iff, mem_distinct]

theorem nodup_joined (source : Text) : (joined source).Nodup :=
  (sortBy_perm _ _).nodup_iff.mpr (nodup_distinct _)

theorem ascending_joined (source : Text) : (joined source).Pairwise fun s t => Text.le s t = true :=
  pairwise_sortBy Text.le_total (fun _ _ _ => Text.le_trans) _

theorem rangeOfSource?_eq (source : Text) : rangeOfSource? source =
    if ranges source = [] then none else some (List.intercalate [' '] (joined source)) := by
  rw [joined, ranges, rangeOfSource?]
  split
  · next none => rw [none, if_pos rfl]
  · next some_range => rw [if_neg some_range]

theorem joined_congr (h : ∀ range, range ∈ ranges other ↔ range ∈ ranges source) :
    joined other = joined source := by
  have same : (joined other).Perm (joined source) :=
    (List.perm_ext_iff_of_nodup (nodup_joined other) (nodup_joined source)).mpr fun range => by
      rw [mem_joined, mem_joined, h]
  exact same.eq_of_pairwise (fun _ _ _ _ => Text.le_antisymm) (ascending_joined other)
    (ascending_joined source)

/-- The order and the repetition of the ranges do not matter. -/
theorem rangeOfSource?_congr (h : ∀ range, range ∈ ranges other ↔ range ∈ ranges source) :
    rangeOfSource? other = rangeOfSource? source := by
  have none_iff : ranges other = [] ↔ ranges source = [] := by
    simp only [List.eq_nil_iff_forall_not_mem, h]
  simp only [rangeOfSource?_eq, none_iff, joined_congr h]

/-- The ranges of a source that are not empty, in the order in which they are joined. -/
def solid (source : Text) : List Text := (joined source).filter (· ≠ [])

theorem mem_solid {range : Text} : range ∈ solid source ↔ range ∈ ranges source ∧ range ≠ [] := by
  rw [solid, List.mem_filter, mem_joined, decide_eq_true_eq]

/-- An empty range comes first. -/
theorem joined_cases (source : Text) :
    joined source = solid source ∨ joined source = [] :: solid source := by
  have distinct := nodup_joined source
  have ascending := ascending_joined source
  rw [solid]
  generalize joined source = parts at distinct ascending
  cases parts with
  | nil => exact .inl rfl
  | cons range more =>
    rw [List.nodup_cons] at distinct
    rw [List.pairwise_cons] at ascending
    have later (some_text : ∀ r ∈ more, r ≠ []) : more.filter (· ≠ []) = more :=
      List.filter_eq_self.mpr fun r member => decide_eq_true (some_text r member)
    cases range with
    | nil =>
      have some_text : ∀ r ∈ more, r ≠ [] := fun r member nothing => distinct.1 (nothing ▸ member)
      exact .inr (by rw [List.filter_cons_of_neg (by simp), later some_text])
    | cons c range =>
      have some_text : ∀ r ∈ more, r ≠ [] := by
        rintro r member rfl
        cases ascending.1 [] member
      exact .inl (by rw [List.filter_cons_of_pos (by simp), later some_text])

/-- White space at its ends aside, what is read are the ranges that are not empty. -/
theorem strip_joined (source : Text) :
    strip (List.intercalate [' '] (joined source)) = List.intercalate [' '] (solid source) := by
  have parts : ∀ range ∈ solid source, Stripped range ∧ range ≠ [] := fun range member =>
    have member := mem_solid.mp member
    ⟨stripped_of_mem_ranges member.1, member.2⟩
  have stripped := stripped_intercalate [' '] parts
  rcases joined_cases source with same | same
  · rw [same, stripped.strip_eq]
  · rw [same]
    cases only : solid source with
    | nil => rfl
    | cons range more =>
      rw [only] at parts stripped
      have some_text := intercalate_ne_nil [' '] (List.cons_ne_nil range more)
        fun range member => (parts range member).2
      have blank : ∀ c ∈ [' '], isBlank c = true := by decide
      rw [List.intercalate_cons_cons, List.nil_append]
      simpa using strip_append stripped some_text blank (List.forall_mem_nil _)

end Pragma

namespace Version

open Text

/-! ## Groups without prereleases -/

theorem prereleaseBounds_eq_nil_iff {group : List Bound} :
    prereleaseBounds group = [] ↔ ∀ b ∈ group, b.target.prerelease = [] := by
  rw [prereleaseBounds, List.flatMap_eq_nil_iff]
  refine forall₂_congr fun b _ => ?_
  split
  · simp [*]
  · next some_prerelease =>
    refine iff_of_false ?_ some_prerelease
    split <;> simp

theorem alternatives_of_released {group : List Bound}
    (h : ∀ b ∈ group, b.target.prerelease = []) : alternatives group = [group] := by
  have same : releaseBounds group = group := by
    rw [releaseBounds]
    refine (List.map_congr_left fun b member => ?_).trans (List.map_id group)
    rw [if_pos (h b member)]
    rfl
  rw [alternatives, prereleaseBounds_eq_nil_iff.mpr h]
  exact congrArg (fun g => [g]) same

theorem eq_of_alternatives {group bounds : List Bound} (h : alternatives group = [bounds]) :
    bounds = group ∧ ∀ b ∈ group, b.target.prerelease = [] := by
  have released : ∀ b ∈ group, b.target.prerelease = [] := by
    rw [← prereleaseBounds_eq_nil_iff]
    unfold alternatives at h
    split at h
    · assumption
    · cases h
  rw [alternatives_of_released released] at h
  exact ⟨(List.singleton_inj.mp h).symm, released⟩

/-! ## Reading simple ranges -/

theorem readRange_eq {s : Text} (h : ¬ "||".toList <:+: s) : readRange s = readGroup s := by
  rw [readRange, splitOnText_of_absent h, List.mapM_cons, List.mapM_nil]
  cases readGroup s with
  | error fault => rfl
  | ok groups => exact congrArg Except.ok (List.append_nil groups)

theorem readGroup_eq {s t : Text} (h : strip s = t) (some_text : t ≠ [])
    (noHyphen : ¬ " - ".toList <:+: t) :
    readGroup s = ((splitOn ' ' t).mapM (readComparator .malformed)).map
      fun bounds => alternatives bounds.flatten := by
  obtain ⟨c, t, rfl⟩ := List.exists_cons_of_ne_nil some_text
  simp only [readGroup, h]
  rw [splitOnText_of_absent noHyphen]
  show Except.bind _ _ = _
  cases (splitOn ' ' (c :: t)).mapM (readComparator .malformed) <;> rfl

/-- A list of comparators without prereleases. -/
structure Simple (range : Text) : Prop where
  noChoice : ¬ "||".toList <:+: range
  noHyphen : ¬ " - ".toList <:+: range
  single : ∃ bounds, readRange range = .ok [bounds]

/-- Whether a version lies in a written range. -/
def liesIn (v : Version) (range : Text) : Bool :=
  match readRange range with
  | .ok range => range.accepts v
  | .error _ => false

/-- The comparators of a written range are those of its blocks. -/
structure Blocks (blocks : List Text) (groups : List (List Bound)) : Prop where
  read : blocks.mapM (readComparator .malformed) = .ok groups
  released : ∀ b ∈ groups.flatten, b.target.prerelease = []

theorem Simple.blocks {range : Text} (h : Simple range) (stripped : Stripped range)
    (some_text : range ≠ []) :
    ∃ groups, Blocks (splitOn ' ' range) groups ∧
      ∀ v, liesIn v range = groups.flatten.all (·.accepts v) := by
  obtain ⟨bounds, read⟩ := h.single
  have lies (v : Version) : liesIn v range = bounds.all (·.accepts v) := by
    rw [liesIn, read]
    exact Bool.or_false _
  rw [readRange_eq h.noChoice, readGroup_eq stripped.strip_eq some_text h.noHyphen,
    map_eq_ok] at read
  obtain ⟨groups, blocks, same⟩ := read
  obtain ⟨rfl, released⟩ := eq_of_alternatives same
  exact ⟨groups, ⟨blocks, released⟩, lies⟩

theorem Blocks.append {blocks more : List Text} {groups further : List (List Bound)}
    (h : Blocks blocks groups) (h' : Blocks more further) :
    Blocks (blocks ++ more) (groups ++ further) where
  read := by
    rw [List.mapM_append, h.read, h'.read]
    rfl
  released := by
    rw [List.flatten_append]
    exact List.forall_mem_append.mpr ⟨h.released, h'.released⟩

/-- The blocks of simple ranges. -/
theorem exists_blocks {parts : List Text}
    (h : ∀ part ∈ parts, Simple part ∧ Stripped part ∧ part ≠ []) :
    ∃ groups, Blocks (parts.flatMap (splitOn ' ')) groups ∧
      ∀ v, groups.flatten.all (·.accepts v) = parts.all (liesIn v) := by
  induction parts with
  | nil => exact ⟨[], ⟨rfl, by simp⟩, fun _ => rfl⟩
  | cons part parts ih =>
    obtain ⟨simple, stripped, some_text⟩ := h part (.head _)
    obtain ⟨first, blocks, lies⟩ := simple.blocks stripped some_text
    obtain ⟨rest, blocks', lies'⟩ := ih fun part member => h part (.tail _ member)
    refine ⟨first ++ rest, blocks.append blocks', fun v => ?_⟩
    rw [List.flatten_append, List.all_append, ← lies, lies', List.all_cons]

/-- Joined simple ranges are read as the comparators of all of them. -/
theorem readRange_simple {parts : List Text} (some_part : parts ≠ [])
    (h : ∀ part ∈ parts, Simple part ∧ Stripped part ∧ part ≠ []) {s : Text}
    (noChoice : ¬ "||".toList <:+: s) (joined : strip s = List.intercalate [' '] parts) :
    ∃ bounds, readRange s = .ok [bounds] ∧
      ∀ v, bounds.all (·.accepts v) = parts.all (liesIn v) := by
  obtain ⟨groups, blocks, lies⟩ := exists_blocks h
  have cut : splitOn ' ' (List.intercalate [' '] parts) = parts.flatMap (splitOn ' ') :=
    splitOn_intercalate ' ' some_part
  have noHyphen : ¬ " - ".toList <:+: List.intercalate [' '] parts := by
    rintro ⟨read, left, split⟩
    have hyphen : ['-'] ∈ parts.flatMap (splitOn ' ') := by
      have whole : read ++ " - " ++ left = read ++ ' ' :: ('-' :: ' ' :: left) := by simp
      rw [← cut, ← split, whole, splitOn_append]
      exact List.mem_append_right _ (.head _)
    obtain ⟨_, impossible⟩ := ok_of_mapM blocks.read ['-'] hyphen
    cases impossible
  have some_text := intercalate_ne_nil [' '] some_part fun part member => (h part member).2.2
  refine ⟨groups.flatten, ?_, lies⟩
  rw [readRange_eq noChoice, readGroup_eq joined some_text noHyphen, cut, blocks.read]
  exact congrArg Except.ok (alternatives_of_released blocks.released)

/-! ## Sources with several pragmas -/

open Pragma (joined joined_cases mem_joined mem_solid nodup_joined ranges rangeOfSource?_eq
  rangeOfSource?_congr solid stripped_of_mem_ranges strip_joined)

/-- The ranges of a source can be read, and not all of them are empty.  If they are not all the
same, they are simple. -/
structure Joinable (source : Text) : Prop where
  readable : ∀ range ∈ ranges source, ∃ read, readRange range = .ok read
  simple : (∀ range ∈ ranges source, Simple range) ∨
    ∀ range ∈ ranges source, ∀ other ∈ ranges source, range = other
  some_range : ∃ range ∈ ranges source, range ≠ []

variable {source other : Text}

theorem compare_zero_then (n : Nat) {rest : Ordering} (h : rest.isLE = true) :
    ((compare 0 n).then rest).isLE = true := by
  cases n with
  | zero => exact h
  | succ n => rfl

/-- Every release lies in the empty range. -/
theorem liesIn_nil {v : Version} (release : v.prerelease = []) : liesIn v [] = true := by
  have read : readRange [] = .ok [[bound .from (Version.release 0 0 0)]] := rfl
  have first : (Version.release 0 0 0).atMost v = true := by
    rw [atMost_iff, order, release]
    exact compare_zero_then _ (compare_zero_then _ (compare_zero_then _ rfl))
  rw [liesIn, read]
  simp [Range.accepts, Bound.accepts, bound, release, first]

/-- A release lies in the solid ranges if it lies in all. -/
theorem all_solid {v : Version} (release : v.prerelease = []) :
    (solid source).all (liesIn v) = (ranges source).all (liesIn v) := by
  rw [Bool.eq_iff_iff, List.all_eq_true, List.all_eq_true]
  constructor
  · intro h range member
    by_cases empty : range = []
    · rw [empty]
      exact liesIn_nil release
    · exact h range (mem_solid.mpr ⟨member, empty⟩)
  · intro h range member
    exact h range (mem_solid.mp member).1

/-- Joined simple ranges are read as one group, which a version keeps if it lies in each of them
that is not empty. -/
theorem exists_range_of_simple (simple : ∀ range ∈ ranges source, Simple range)
    (some_range : ∃ range ∈ ranges source, range ≠ []) :
    ∃ text bounds, Pragma.rangeOfSource? source = some text ∧ text ≠ [] ∧
      readRange text = .ok [bounds] ∧
      ∀ v, bounds.all (·.accepts v) = (solid source).all (liesIn v) := by
  obtain ⟨range, member, some_text⟩ := some_range
  have asked : Pragma.rangeOfSource? source = some (List.intercalate [' '] (joined source)) := by
    rw [rangeOfSource?_eq, if_neg (List.ne_nil_of_mem member)]
  have parts : ∀ part ∈ solid source, Simple part ∧ Stripped part ∧ part ≠ [] :=
    fun part inside =>
      have inside := mem_solid.mp inside
      ⟨simple part inside.1, stripped_of_mem_ranges inside.1, inside.2⟩
  have some_part : solid source ≠ [] := List.ne_nil_of_mem (mem_solid.mpr ⟨member, some_text⟩)
  have noChoice : ¬ "||".toList <:+: List.intercalate [' '] (joined source) := by
    intro inside
    obtain ⟨part, among, inside⟩ := infix_of_infix_intercalate (by decide) (by decide) inside
    exact (simple part (mem_joined.mp among)).noChoice inside
  obtain ⟨bounds, read, lies⟩ := readRange_simple some_part parts noChoice (strip_joined source)
  refine ⟨_, bounds, asked, ?_, read, lies⟩
  intro nothing
  have stripped := strip_joined source
  rw [nothing] at stripped
  exact intercalate_ne_nil [' '] some_part (fun part inside => (parts part inside).2.2)
    stripped.symm

/-- The joined ranges are read as a range in which a release lies if it lies in each of them. -/
theorem Joinable.exists_range (h : Joinable source) :
    ∃ text range, Pragma.rangeOfSource? source = some text ∧ text ≠ [] ∧
      readRange text = .ok range ∧
      ∀ v, v.prerelease = [] → range.accepts v = (ranges source).all (liesIn v) := by
  rcases h.simple with simple | same
  · obtain ⟨text, bounds, asked, some_text, read, lies⟩ :=
      exists_range_of_simple simple h.some_range
    refine ⟨text, [bounds], asked, some_text, read, fun v release => ?_⟩
    rw [← all_solid release, ← lies]
    exact Bool.or_false _
  · obtain ⟨range, member, some_text⟩ := h.some_range
    have only : joined source = [range] := by
      rw [← List.perm_singleton,
        List.perm_ext_iff_of_nodup (nodup_joined source) (List.nodup_singleton range)]
      intro part
      rw [mem_joined, List.mem_singleton]
      exact ⟨fun inside => same part inside range member, fun is => is ▸ member⟩
    have asked : Pragma.rangeOfSource? source = some range := by
      rw [rangeOfSource?_eq, if_neg (List.ne_nil_of_mem member), only, List.intercalate_singleton]
    obtain ⟨r, read⟩ := h.readable range member
    have lies (v : Version) : liesIn v range = r.accepts v := by rw [liesIn, read]
    refine ⟨range, r, asked, some_text, read, fun v _ => ?_⟩
    rw [← lies, Bool.eq_iff_iff, List.all_eq_true]
    exact ⟨fun inside part among => same range member part among ▸ inside,
      fun all => all range member⟩

/-- What a source accepts whose range is read. -/
theorem acceptedBy_of_range {text : Text} {range : Range} {texts : List Text}
    {versions : List Version} (asked : Pragma.rangeOfSource? source = some text)
    (some_text : text ≠ []) (readable : readRange text = .ok range)
    (read : readAll texts = .ok versions) :
    acceptedBy source texts =
      .ok (((sortBy atMost versions).filter range.accepts).map render) := by
  obtain ⟨c, text, rfl⟩ := List.exists_cons_of_ne_nil some_text
  rw [acceptedBy, asked]
  simp only [readable, read, Except.map]

/-- A source whose range is not read accepts nothing. -/
theorem acceptedBy_of_fault {text : Text} {fault : Range.Fault} {texts : List Text}
    (asked : Pragma.rangeOfSource? source = some text) (some_text : text ≠ [])
    (unreadable : readRange text = .error fault) :
    acceptedBy source texts = .error (.range fault) := by
  obtain ⟨c, text, rfl⟩ := List.exists_cons_of_ne_nil some_text
  rw [acceptedBy, asked]
  simp only [unreadable]

/-- What a joinable source accepts of versions that are read. -/
theorem Joinable.acceptedBy_eq (h : Joinable source) {texts : List Text} {versions : List Version}
    (read : readAll texts = .ok versions) (releases : ∀ v ∈ versions, v.prerelease = []) :
    acceptedBy source texts = .ok (((sortBy atMost versions).filter fun v =>
      (ranges source).all (liesIn v)).map render) := by
  obtain ⟨text, range, asked, some_text, readable, lies⟩ := h.exists_range
  have same : (sortBy atMost versions).filter range.accepts =
      (sortBy atMost versions).filter fun v => (ranges source).all (liesIn v) :=
    List.filter_congr fun v member => lies v (releases v ((sortBy_perm _ _).mem_iff.mp member))
  rw [acceptedBy_of_range asked some_text readable read, same]

/-- The order and the repetition of pragmas do not matter.  A joinable source accepts of releases,
in ascending order and as often as they are listed, those that lie in the range of every pragma.
So a further pragma accepts no more.  Ranges that are all empty accept nothing. -/
theorem acceptedBy_pragmas (source : Text) {texts : List Text} {versions : List Version}
    (read : readAll texts = .ok versions) (releases : ∀ v ∈ versions, v.prerelease = []) :
    (∀ other, (∀ range, range ∈ ranges other ↔ range ∈ ranges source) →
      acceptedBy other texts = acceptedBy source texts) ∧
    (Joinable source → ∃ answers : List Version,
      acceptedBy source texts = .ok (answers.map render) ∧
      answers.Perm (versions.filter fun v => (ranges source).all (liesIn v)) ∧
      answers.Pairwise fun v w => v.atMost w = true) ∧
    (Joinable source → ∀ other, Joinable other → ranges source ⊆ ranges other →
      ∀ fewer answers, acceptedBy other texts = .ok fewer → acceptedBy source texts = .ok answers →
        fewer.Sublist answers) ∧
    ((∀ range ∈ ranges source, range = []) → acceptedBy source texts = .ok []) := by
  refine ⟨fun other same => ?_, fun joinable => ?_, fun joinable other joinable' further => ?_,
    fun empty => ?_⟩
  · rw [acceptedBy, rangeOfSource?_congr same]
    rfl
  · exact ⟨_, joinable.acceptedBy_eq read releases, (sortBy_perm _ _).filter _,
      (pairwise_sortBy atMost_total (fun _ _ _ => atMost_trans) versions).filter _⟩
  · intro fewer answers other_answers source_answers
    rw [joinable'.acceptedBy_eq read releases] at other_answers
    rw [joinable.acceptedBy_eq read releases] at source_answers
    cases other_answers
    cases source_answers
    refine (List.monotone_filter_right _ fun v lies => ?_).map render
    rw [List.all_eq_true] at lies ⊢
    exact fun range member => lies range (further member)
  · have none_solid : solid source = [] := List.eq_nil_iff_forall_not_mem.mpr fun range member =>
      (mem_solid.mp member).2 (empty range (mem_solid.mp member).1)
    have nothing : List.intercalate [' '] (joined source) = [] := by
      rcases joined_cases source with same | same
      · rw [same, none_solid]
        rfl
      · rw [same, none_solid]
        rfl
    rw [acceptedBy, rangeOfSource?_eq, nothing]
    split
    · rfl
    · rfl
    · next text some_text asked =>
      obtain ⟨_, same⟩ := Option.ite_none_left_eq_some.mp asked
      exact absurd (Option.some.inj same).symm some_text

/-! ## Three pragmas -/

/-- A source with three version pragmas, two of which are the same. -/
def threePragmas : Text :=
  "pragma solidity >=0.8.4;\npragma solidity ^0.8.0;\npragma solidity >=0.8.4;\n"

theorem ranges_threePragmas :
    ranges threePragmas = [">=0.8.4".toList, "^0.8.0".toList, ">=0.8.4".toList] := by
  decide

theorem simple_threePragmas : ∀ range ∈ ranges threePragmas, Simple range := by
  rw [ranges_threePragmas]
  have bounded : Simple ">=0.8.4" :=
    { noChoice := not_infix_of_not_mem (.head _) (by decide)
      noHyphen := not_infix_of_not_mem (.head _) (by decide)
      single := ⟨[bound .from (Version.release 0 8 4)], rfl⟩ }
  have caret : Simple "^0.8.0" :=
    { noChoice := not_infix_of_not_mem (.head _) (by decide)
      noHyphen := not_infix_of_not_mem (.head _) (by decide)
      single :=
        ⟨[bound .from (Version.release 0 8 0), bound .below (Version.release 0 9 0)], rfl⟩ }
  simp only [List.forall_mem_cons]
  exact ⟨bounded, caret, bounded, List.forall_mem_nil _⟩

/-- The release that lies in both ranges is accepted as often as it is listed. -/
theorem acceptedBy_threePragmas : ∃ answers : List Version,
    acceptedBy threePragmas ["0.9.0", "0.8.4", "0.8.3", "0.8.4"] = .ok (answers.map render) ∧
      answers.Perm [Version.release 0 8 4, Version.release 0 8 4] := by
  have read : readAll ["0.9.0", "0.8.4", "0.8.3", "0.8.4"] = .ok [Version.release 0 9 0,
      Version.release 0 8 4, Version.release 0 8 3, Version.release 0 8 4] := rfl
  have joinable : Joinable threePragmas := by
    refine ⟨fun range member => ?_, .inl simple_threePragmas, ?_⟩
    · obtain ⟨bounds, read⟩ := (simple_threePragmas range member).single
      exact ⟨_, read⟩
    · rw [ranges_threePragmas]
      exact ⟨_, .head _, by decide⟩
  obtain ⟨_, accepted, _⟩ := acceptedBy_pragmas threePragmas read (by decide)
  obtain ⟨answers, same, perm, _⟩ := accepted joinable
  rw [ranges_threePragmas] at perm
  exact ⟨answers, same, perm⟩

end Version

end TokenForge

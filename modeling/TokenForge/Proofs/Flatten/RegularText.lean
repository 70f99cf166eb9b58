import TokenForge.Proofs.Flatten.PreamblePart

/-!
# Regular texts

A text is `Regular` if its parts are whole and each license line and each version pragma in it
starts a line.  Such a text has as many hits as parts that open with one (`hits_length`), and
`dropPreamble` leaves none of them (`plain_dropPreamble`).  Two statements on one line are not
regular: when the first of two version pragmas on a line is dropped, the second one starts the
line and stays.

A text is `Plain` if no part of it opens with a license line or a version pragma.
-/

namespace TokenForge

open Text
open Import (Closed closed_append closed_concat closed_nil mayStart)

namespace Preamble

variable {part rest s t : Text} {before : Option Char}

/-! ## Regular texts -/

/-- Parts behind a character are whole, and those that open with something start a line, behind
spaces and tabs. -/
def InOrder : Option Char → List Text → Prop
  | _, [] => True
  | before, part :: more =>
    Whole part ∧ (Opening part → atLineStart before = true ∧ dropBlanks part = dropSpaces part) ∧
      InOrder part.getLast? more

/-- The license lines and the version pragmas of a text start lines. -/
def Regular (before : Option Char) (s : Text) : Prop := InOrder before (parts s)

instance decidableInOrder : (before : Option Char) → (ps : List Text) →
    Decidable (InOrder before ps)
  | _, [] => isTrue trivial
  | _, part :: more =>
    have := decidableInOrder part.getLast? more
    inferInstanceAs (Decidable (_ ∧ _ ∧ _))

instance (before : Option Char) (s : Text) : Decidable (Regular before s) :=
  decidableInOrder before (parts s)

theorem regular_nil : Regular before [] := trivial

theorem regular_part (isPart : IsPart part rest) :
    Regular before (part ++ rest) ↔ Whole part ∧
      (Opening part → atLineStart before = true ∧ dropBlanks part = dropSpaces part) ∧
      Regular part.getLast? rest := by
  rw [Regular, isPart.parts]
  rfl

theorem Regular.whole (h : Regular before s) : ∀ p ∈ parts s, Whole p := by
  induction s using parts_induction generalizing before with
  | done => exact fun _ member => nomatch member
  | step part rest isPart ih =>
    obtain ⟨whole, _, later⟩ := (regular_part isPart).mp h
    rw [isPart.parts]
    exact List.forall_mem_cons.mpr ⟨whole, ih later⟩

theorem Regular.atLineStart {after : Option Char} (h : Regular before s)
    (start : atLineStart after = true) : Regular after s := by
  by_cases some_text : s = []
  · exact some_text ▸ regular_nil
  · obtain ⟨part, rest, rfl, isPart⟩ := exists_isPart some_text
    obtain ⟨whole, opening, later⟩ := (regular_part isPart).mp h
    exact (regular_part isPart).mpr ⟨whole, fun opens => ⟨start, (opening opens).2⟩, later⟩

theorem regular_append (closed : Closed s) :
    Regular before (s ++ t) ↔ Regular before s ∧ Regular (charBefore before s) t := by
  induction s using parts_induction generalizing before with
  | done => exact ⟨fun h => ⟨regular_nil, h⟩, fun h => h.2⟩
  | step part rest isPart ih =>
    have longer : IsPart part (rest ++ t) := by
      refine ⟨isPart.some_text, ?_, isPart.inside⟩
      rcases isPart.ends with ends | rfl
      · exact .inl ends
      · rw [List.append_nil] at closed
        exact .inl closed
    have closed_rest : Closed rest := by
      by_cases nothing : rest = []
      · exact nothing ▸ closed_nil
      · exact (closed_append nothing).mp closed
    rw [List.append_assoc, regular_part longer, regular_part isPart, ih closed_rest,
      charBefore_append, charBefore_eq_getLast? before isPart.some_text]
    tauto

/-- White space may be left out before a text that follows a semicolon. -/
theorem Regular.of_inner_append {inner : Text} (h : Regular (some ';') (inner ++ s))
    (blank : InnerBlanks inner) (after : Option Char) : Regular after s := by
  by_cases some_text : s = []
  · exact some_text ▸ regular_nil
  · obtain ⟨part, more, split, longer⟩ := parts_inner_append blank some_text
    rw [Regular, longer] at h
    rw [Regular, split]
    obtain ⟨whole, opening, later⟩ := h
    have some_part : part ≠ [] := ne_nil_of_mem_parts (s := s) (by simp [split])
    rw [List.getLast?_append_of_ne_nil _ some_part] at later
    refine ⟨whole.of_inner_append blank some_part, fun opens => ?_, later⟩
    have start := (opening ((opening_inner_append blank).mpr opens)).1
    cases start

/-- What follows a hit is regular. -/
theorem Regular.behind {covered : Text} (h : Regular before (covered ++ rest))
    (settles : Settles covered rest) : Regular (charBefore before covered) rest := by
  rcases settles with rfl | ⟨statement, inner, rfl, closed, blank, none | semicolon⟩
  · exact regular_nil
  · subst none
    rw [List.append_nil] at h ⊢
    exact ((regular_append closed).mp h).2
  · rw [List.append_assoc] at h
    have later := ((regular_append closed).mp h).2
    have some_text : statement ≠ [] := by
      rintro rfl
      cases semicolon
    rw [charBefore_eq_getLast? before some_text, semicolon] at later
    exact later.of_inner_append blank _

/-! ## Openings -/

/-- How many parts of a text open with a hit. -/
def openings {α : Type} (find : Recogniser α) (s : Text) : Nat := (parts s).countP (opens find)

theorem openings_part {α : Type} (find : Recogniser α) (isPart : IsPart part rest) :
    openings find (part ++ rest) =
      (if opens find part = true then 1 else 0) + openings find rest := by
  rw [openings, isPart.parts, List.countP_cons, Nat.add_comm]
  rfl

theorem openings_append {α : Type} (find : Recogniser α) (closed : Closed s) (t : Text) :
    openings find (s ++ t) = openings find s + openings find t := by
  rw [openings, parts_append closed, List.countP_append]
  rfl

theorem openings_eq_zero {α : Type} {find : Recogniser α} :
    openings find s = 0 ↔ ∀ p ∈ parts s, opens find p = false := by
  simp [openings, List.countP_eq_zero]

/-- A text without license lines and version pragmas, whatever stands before it. -/
def Plain (s : Text) : Prop := ∀ p ∈ parts s, Whole p ∧ ¬ Opening p

theorem Plain.regular (h : Plain s) (before : Option Char) : Regular before s := by
  induction s using parts_induction generalizing before with
  | done => exact regular_nil
  | step part rest isPart ih =>
    rw [Plain, isPart.parts, List.forall_mem_cons] at h
    obtain ⟨⟨whole, quiet⟩, later⟩ := h
    exact (regular_part isPart).mpr ⟨whole, fun opening => absurd opening quiet, ih later _⟩

theorem plain_iff : Plain s ↔
    (∀ p ∈ parts s, Whole p) ∧ openings license s = 0 ∧ openings versionPragma s = 0 := by
  rw [openings_eq_zero, openings_eq_zero]
  constructor
  · intro h
    exact ⟨fun p member => (h p member).1, by simpa using fun p member => mt Or.inl (h p member).2,
      by simpa using fun p member => mt Or.inr (h p member).2⟩
  · rintro ⟨whole, unlicensed, unversioned⟩ p member
    refine ⟨whole p member, ?_⟩
    rintro (opening | opening)
    · rw [unlicensed p member] at opening
      cases opening
    · rw [unversioned p member] at opening
      cases opening

/-! ## A line feed at the end -/

theorem dropBlanks_lineFeed (s : Text) :
    dropBlanks (s ++ ['\n']) = [] ∨ dropBlanks (s ++ ['\n']) = dropBlanks s ++ ['\n'] := by
  by_cases all : dropBlanks s = []
  · exact .inl (dropWhile_append_of_eq_nil all ['\n'])
  · exact .inr (dropWhile_append_of_ne_nil all ['\n'])

/-- A word that is read before a line feed is read without it. -/
theorem after?_lineFeed {word : Text} (single : '\n' ∉ word)
    (unread : after? word s = none) : after? word (s ++ ['\n']) = none := by
  rw [Option.eq_none_iff_forall_ne_some]
  intro left read
  obtain ⟨behind, rfl⟩ := isPrefix_of_after? single read (atBreak_cons [])
  rw [after?_append] at unread
  cases unread

theorem mem_of_behindSolidity? {left : Text} (h : behindSolidity? s = some left) : ';' ∈ s := by
  by_contra absent
  have nothing : s.dropWhile (· != ';') = [] := by
    rw [List.dropWhile_eq_nil_iff]
    intro c member
    simpa using ne_of_mem_of_not_mem member absent
  rw [behindSolidity?, nothing] at h
  split at h
  · next impossible => cases impossible
  · cases h

/-- A part that opens with a version pragma has a semicolon. -/
theorem mem_of_opens (h : opens versionPragma s = true) : ';' ∈ s := by
  rw [opens_versionPragma, Option.isSome_iff_exists] at h
  simp only [behindPragma?, Option.bind_eq_some_iff] at h
  obtain ⟨_, behind, word, left, blanks, body, name, statement⟩ := h
  have suffix : body <:+ s := by
    calc body
      _ <:+ left := suffix_of_after? name
      _ <:+ behind := suffix_of_dropBlanks1? blanks
      _ <:+ dropBlanks s := suffix_of_after? word
      _ <:+ s := dropBlanks_suffix s
  exact suffix.subset (mem_of_behindSolidity? statement)

/-- No license line is completed by a line feed. -/
theorem opens_license_lineFeed (quiet : opens license part = false) :
    opens license (part ++ ['\n']) = false := by
  rw [opens_license] at quiet ⊢
  rcases dropBlanks_lineFeed part with all | same
  · rw [all]
    rfl
  rw [same]
  cases slashes : after? "//" (dropBlanks part) with
  | none =>
    rw [after?_lineFeed (by decide) slashes]
    rfl
  | some comment =>
    have longer : after? "//" (dropBlanks part ++ ['\n']) = some (comment ++ ['\n']) := by
      rw [after?_eq_some_iff.mp slashes, List.append_assoc, after?_append]
    rw [slashes, Option.bind_some, Option.isSome_eq_false_iff, Option.isNone_iff_eq_none] at quiet
    rw [longer, Option.bind_some]
    rcases dropBlanks_lineFeed comment with all | same
    · rw [all]
      rfl
    · rw [same, after?_lineFeed (by decide) quiet]
      rfl

/-- The last part of a text may get a line feed. -/
theorem whole_lineFeed (inner : ∀ c ∈ part, mayStart (some c) = false) (whole : Whole part) :
    Whole (part ++ ['\n']) := by
  rcases dropBlanks_lineFeed part with all | same
  · refine ⟨by rw [all]; rfl, fun s read => ?_⟩
    rw [all] at read
    cases read
  refine ⟨by rw [same]; exact after?_lineFeed (by decide) whole.named, fun s read => .inr ?_⟩
  rw [same] at read
  obtain ⟨behind, split⟩ := isPrefix_of_after? (by decide) read (atBreak_cons [])
  rw [← split, List.append_assoc, Option.mem_def, after?_append] at read
  cases read
  rcases whole.ended behind (by rw [← split]; exact after?_append _ _) with ends | ⟨some_text, name⟩
  · have impossible := inner ';' (List.mem_of_getLast? ends)
    cases impossible
  · have longer : dropBlanks (behind ++ ['\n']) = dropBlanks behind ++ ['\n'] :=
      dropWhile_append_of_ne_nil some_text ['\n']
    rw [longer]
    exact ⟨by simp, after?_lineFeed (by decide) name⟩

theorem plain_lineFeed (plain : Plain s) : Plain (s ++ ['\n']) := by
  have lineFeed : IsPart ['\n'] [] := ⟨by simp, .inr rfl, by simp⟩
  have alone : parts ['\n'] = [['\n']] := lineFeed.parts
  induction s using parts_induction with
  | done =>
    intro p member
    rw [List.nil_append, alone] at member
    rw [List.mem_singleton.mp member]
    decide
  | step part rest isPart ih =>
    rw [Plain, isPart.parts, List.forall_mem_cons] at plain
    obtain ⟨⟨whole, quiet⟩, later⟩ := plain
    by_cases closed : Closed part
    · rw [Plain, List.append_assoc]
      have longer : IsPart part (rest ++ ['\n']) := ⟨isPart.some_text, .inl closed, isPart.inside⟩
      rw [longer.parts, List.forall_mem_cons]
      exact ⟨⟨whole, quiet⟩, ih later⟩
    · obtain rfl := isPart.ends.resolve_left closed
      have inner := isPart.inside_of_not_closed closed
      have longer : IsPart (part ++ ['\n']) [] :=
        ⟨by simp, .inr rfl, by rw [List.dropLast_concat]; exact inner⟩
      have same := longer.parts
      rw [List.append_nil] at same
      rw [Plain, List.append_nil, same, List.forall_mem_cons]
      refine ⟨⟨whole_lineFeed inner whole, ?_⟩, by simp [parts]⟩
      rintro (license | version)
      · rw [opens_license_lineFeed (by simpa using mt Or.inl quiet)] at license
        cases license
      · have member := mem_of_opens version
        have impossible := inner ';' (by simpa using member)
        cases impossible

/-! ## Scanning regular texts -/

/-- What the recognisers of license lines and of version pragmas have in common. -/
structure Partwise (find : Recogniser Unit) : Prop where
  anchored : Anchored TokenForge.atLineStart find
  settles : ∀ {before covered rest a}, find before (covered ++ rest) = some (a, rest) →
    Settles covered rest
  opening : ∀ part, opens find part = true → Opening part
  hit_iff : ∀ {part rest}, IsPart part rest → (∀ p ∈ parts (part ++ rest), Whole p) →
    ∀ before, (find before (part ++ rest)).isSome = true ↔ TokenForge.atLineStart before = true ∧
      dropBlanks part = dropSpaces part ∧ opens find part = true
  /-- A hit covers one opening. -/
  single : ∀ {before part rest a left}, IsPart part rest → Regular before (part ++ rest) →
    find before (part ++ rest) = some (a, left) → openings find rest = openings find left

/-- In a line that does not start with it there is no license line. -/
theorem openings_behindLine (inside : before ≠ none ∧ before ≠ some '\n') (h : Regular before s) :
    openings license s = openings license (behindLine s) := by
  induction s using parts_induction generalizing before with
  | done => rfl
  | step part rest isPart ih =>
    obtain ⟨_, opening, later⟩ := (regular_part isPart).mp h
    have quiet : opens license part ≠ true := by
      intro opens
      have start := (opening (.inl opens)).1
      cases before with
      | none => exact inside.1 rfl
      | some c =>
        rw [TokenForge.atLineStart, beq_iff_eq] at start
        exact inside.2 (congrArg some start)
    rw [openings_part license isPart, if_neg quiet, Nat.zero_add, behindLine_part isPart]
    split
    · rfl
    · next ends =>
      have some_char : part.getLast? ≠ none := by simpa using isPart.some_text
      exact ih ⟨some_char, ends⟩ later

theorem openings_inner_append {inner : Text} (blank : InnerBlanks inner) (s : Text) :
    openings versionPragma (inner ++ s) = openings versionPragma s := by
  by_cases some_text : s = []
  · subst some_text
    by_cases nothing : inner = []
    · rw [nothing, List.append_nil]
    · have isPart : IsPart inner [] :=
        ⟨nothing, .inr rfl, fun c member => (blank c (List.dropLast_subset inner member)).2⟩
      rw [openings_part versionPragma isPart, ← List.append_nil inner, opens_inner_append blank]
      rfl
  · obtain ⟨part, more, split, longer⟩ := parts_inner_append blank some_text
    rw [openings, openings, split, longer, List.countP_cons, List.countP_cons,
      opens_inner_append blank]

theorem partwise_license : Partwise license where
  anchored := license_anchored
  settles := license_settles
  opening _ := .inl
  hit_iff := by
    intro part rest isPart whole before
    rw [isPart.parts, List.forall_mem_cons] at whole
    rw [license_part isPart whole.2]
    split <;> simp_all
  single := by
    intro before part rest a left isPart regular hit
    have whole := regular.whole
    rw [isPart.parts, List.forall_mem_cons] at whole
    rw [license_part isPart whole.2, Option.ite_none_right_eq_some] at hit
    obtain ⟨_, ⟨⟩⟩ := hit
    rw [behindLine_part isPart]
    split
    · rfl
    · next ends =>
      have some_char : part.getLast? ≠ none := by simpa using isPart.some_text
      exact openings_behindLine ⟨some_char, ends⟩ ((regular_part isPart).mp regular).2.2

theorem partwise_versionPragma : Partwise versionPragma where
  anchored := versionPragma_anchored
  settles := versionPragma_settles
  opening _ := .inr
  hit_iff := by
    intro part rest isPart whole before
    rw [isPart.parts, List.forall_mem_cons] at whole
    rw [versionPragma_part isPart whole.1]
    split <;> simp_all
  single := by
    intro before part rest a left isPart regular hit
    have whole := regular.whole
    rw [isPart.parts, List.forall_mem_cons] at whole
    rw [versionPragma_part isPart whole.1, Option.ite_none_right_eq_some] at hit
    obtain ⟨_, ⟨⟩⟩ := hit
    obtain ⟨inner, blank, same | same⟩ := afterStatement_cases rest
    · conv => lhs; rw [same]
      exact openings_inner_append blank _
    · conv => lhs; rw [same]
      rw [openings_inner_append blank]
      have isPart : IsPart ['\n'] (afterStatement rest) := ⟨by simp, .inl rfl, by simp⟩
      have quiet : opens versionPragma ['\n'] ≠ true := by decide
      rw [← List.singleton_append, openings_part versionPragma isPart, if_neg quiet, Nat.zero_add]

section Scans

variable {find : Recogniser Unit}

/-- At a part at which nothing is hit a regular text has no opening. -/
theorem Partwise.quiet (h : Partwise find) (isPart : IsPart part rest)
    (regular : Regular before (part ++ rest)) (miss : find before (part ++ rest) = none) :
    opens find part ≠ true := by
  intro opening
  obtain ⟨start, indented⟩ := ((regular_part isPart).mp regular).2.1 (h.opening part opening)
  have hit := (h.hit_iff isPart regular.whole before).mpr ⟨start, indented, opening⟩
  rw [miss] at hit
  cases hit

/-- A hit in a regular text is an opening, and the others are behind it. -/
theorem Partwise.openings_hit (h : Partwise find) {covered : Text} {a : Unit}
    (regular : Regular before (covered ++ rest)) (some_text : covered ≠ [])
    (hit : find before (covered ++ rest) = some (a, rest)) :
    openings find (covered ++ rest) = 1 + openings find rest := by
  obtain ⟨part, later, split, isPart⟩ := exists_isPart (s := covered ++ rest) (by simp [some_text])
  rw [split] at regular hit ⊢
  obtain ⟨_, _, opening⟩ :=
    (h.hit_iff isPart regular.whole before).mp (by rw [hit]; rfl)
  rw [openings_part find isPart, if_pos opening, h.single isPart regular hit]

/-- A regular text has as many hits as openings. -/
theorem Partwise.hits_length (h : Partwise find) (regular : Regular before s) :
    (found (piecesFrom find 0 before s)).length = openings find s := by
  induction before, s using scan_parts_induction h.anchored with
  | done before => rfl
  | pass before part rest isPart miss ih =>
    rw [piecesFrom_part h.anchored Import.mayStart_of_atLineStart isPart miss, found_append,
      found_chars, List.nil_append, ih ((regular_part isPart).mp regular).2.2,
      openings_part find isPart, if_neg (h.quiet isPart regular miss), Nat.zero_add]
  | hit before covered rest a start some_text hit ih =>
    rw [piecesFrom_hit hit some_text, h.openings_hit regular some_text hit,
      ← ih (regular.behind (h.settles hit)), Nat.add_comm]
    rfl

/-- A regular text without its hits is regular and has no opening. -/
theorem Partwise.remove (h : Partwise find) (regular : Regular before s) :
    Regular before ((piecesFrom find 0 before s).flatMap (replacePiece fun _ => [])) ∧
      openings find ((piecesFrom find 0 before s).flatMap (replacePiece fun _ => [])) = 0 := by
  induction before, s using scan_parts_induction h.anchored with
  | done before => exact ⟨regular_nil, rfl⟩
  | pass before part rest isPart miss ih =>
    obtain ⟨whole, opening, later⟩ := (regular_part isPart).mp regular
    rw [piecesFrom_part h.anchored Import.mayStart_of_atLineStart isPart miss,
      List.flatMap_append, List.flatMap_map]
    have chars : part.flatMap (fun c => replacePiece (fun _ : Unit => []) (.char c)) = part :=
      List.flatMap_singleton' part
    rw [chars]
    generalize removed : (piecesFrom find 0 part.getLast? rest).flatMap _ = t at ih ⊢
    have isPart' : IsPart part t := by
      refine ⟨isPart.some_text, ?_, isPart.inside⟩
      rcases isPart.ends with closed | rfl
      · exact .inl closed
      · exact .inr removed.symm
    obtain ⟨regular', none⟩ := ih later
    refine ⟨(regular_part isPart').mpr ⟨whole, opening, regular'⟩, ?_⟩
    rw [openings_part find isPart', if_neg (h.quiet isPart regular miss), none]
  | hit before covered rest a start some_text hit ih =>
    rw [piecesFrom_hit hit some_text, List.flatMap_cons]
    obtain ⟨regular', none⟩ := ih (regular.behind (h.settles hit))
    exact ⟨regular'.atLineStart start, none⟩

end Scans

/-! ## Dropping -/

/-- Removing version pragmas opens no license line. -/
theorem openings_license_remove (unlicensed : openings license s = 0) :
    openings license (Text.remove versionPragma s) = 0 := by
  rw [openings_eq_zero] at unlicensed ⊢
  intro part member
  obtain ⟨inner, blank, kept⟩ := Flatten.parts_trimmed versionPragma_anchored
    Import.mayStart_of_atLineStart versionPragma_settles (Flatten.trimmed_remove _) part member
  rw [← opens_inner_append blank]
  exact unlicensed _ kept

/-- Of a regular text no license line and no version pragma is left. -/
theorem plain_dropPreamble (regular : Regular none s) : Plain (dropPreamble s) := by
  obtain ⟨regular', unlicensed⟩ := partwise_license.remove regular
  obtain ⟨regular'', unversioned⟩ := partwise_versionPragma.remove regular'
  exact plain_iff.mpr ⟨regular''.whole, openings_license_remove unlicensed, unversioned⟩

theorem Plain.hits (h : Plain s) : hits license s = [] ∧ hits versionPragma s = [] := by
  obtain ⟨_, unlicensed, unversioned⟩ := plain_iff.mp h
  have regular := h.regular none
  have licenses := partwise_license.hits_length regular
  have versions := partwise_versionPragma.hits_length regular
  rw [unlicensed] at licenses
  rw [unversioned] at versions
  exact ⟨List.eq_nil_of_length_eq_zero licenses, List.eq_nil_of_length_eq_zero versions⟩

/-- A text stays as it is when preamble lines are dropped if and only if it has none. -/
theorem dropPreamble_eq_self_iff :
    dropPreamble s = s ↔ hits license s = [] ∧ hits versionPragma s = [] := by
  constructor
  · intro same
    have unlicensed := remove_sublist license s
    have unversioned := remove_sublist versionPragma (Text.remove license s)
    rw [← dropPreamble, same] at unversioned
    have licenses := unlicensed.eq_of_length_le unversioned.length_le
    rw [dropPreamble, licenses] at same
    exact ⟨remove_eq_self_iff.mp licenses, remove_eq_self_iff.mp same⟩
  · rintro ⟨unlicensed, unversioned⟩
    rw [dropPreamble, remove_eq_self_iff.mpr unlicensed, remove_eq_self_iff.mpr unversioned]

/-- From a regular text all preamble lines are dropped the first time. -/
theorem dropPreamble_dropPreamble (regular : Regular none s) :
    dropPreamble (dropPreamble s) = dropPreamble s :=
  dropPreamble_eq_self_iff.mpr (plain_dropPreamble regular).hits

end Preamble

end TokenForge

import TokenForge.Flatten.Basic
import TokenForge.Proofs.Flatten.DirectiveLine

/-!
# Preamble lines of a flattened document

A flattened document consists of lines of the sources and of comments that name missing
files.  The recognisers of license lines, version pragmas and feature pragmas treat it
line by line (`license_reads`, `version_reads`, `feature_reads`).

A license line may have line feeds between the slashes and what follows them.  No line
begins with what follows, though, so that no comment runs into a later line
(`not_license_behind`).
-/

namespace TokenForge

namespace Flatten

open Text

/-! ## Entries -/

/-- A path without line feeds. -/
abbrev LinePath := {path : Text // '\n' ∉ path}

/-- A line of a flattened document. -/
inductive Entry where
  | own (l : Line)
  /-- The comment in the place of a directive whose path has no file. -/
  | missing (path : LinePath)

/-- The comment that names a missing file, without its line feed. -/
def missingText (path : LinePath) : Text := "// Import not found: " ++ path.1

theorem missingComment_eq (path : LinePath) :
    missingComment path.1 = missingText path ++ "\n" := rfl

theorem missingText_single (path : LinePath) : '\n' ∉ missingText path := by
  unfold missingText
  simp [path.2]

namespace Entry

/-- The text of an entry. -/
def text : Entry → Text
  | own l => l.text
  | missing path => missingText path

/-- The mark of a license line. -/
def license? : Entry → Option Unit
  | own (.license _) => some ()
  | _ => none

/-- The mark of a version pragma. -/
def version? : Entry → Option Unit
  | own (.version _) => some ()
  | _ => none

/-- The feature of a feature pragma. -/
def feature? : Entry → Option Preamble.Feature
  | own (.feature f) => some f.feature
  | _ => none

theorem text_single (e : Entry) : '\n' ∉ e.text := by
  cases e with
  | own l => exact l.text_single
  | missing path => exact missingText_single path

/-- What stands behind the indentation of an entry, if it is known. -/
def opening? : Entry → Option Char
  | own (.directive _) => some 'i'
  | own (.license _) => some '/'
  | own (.version _) => some 'p'
  | own (.feature _) => some 'p'
  | own (.other _) => none
  | missing _ => some '/'

/-- An entry of a known kind begins, behind its indentation, with a character of its own. -/
theorem text_eq_of_opening? {e : Entry} {c : Char} (h : e.opening? = some c) :
    ∃ (indent : Spaces) (s : Text), e.text = indent.1 ++ c :: s ∧ isBlank c = false := by
  cases e with
  | missing path =>
    cases h
    exact ⟨⟨[], by simp⟩, _, rfl, by decide⟩
  | own l =>
    cases l with
    | directive d =>
      cases h
      exact ⟨d.indent, _, rfl, by decide⟩
    | license l =>
      cases h
      exact ⟨l.indent, _, rfl, by decide⟩
    | version v =>
      cases h
      exact ⟨v.indent, _, rfl, by decide⟩
    | feature f =>
      cases h
      exact ⟨f.indent, _, rfl, by decide⟩
    | other o => cases h

/-- An entry does not begin with a word that begins otherwise. -/
theorem after?_text_eq_none {e : Entry} {c d : Char} {word : Text} (h : e.opening? = some c)
    (first : word.head? = some d) (differ : d ≠ c) (tail : Text) :
    after? word (dropSpaces (e.text ++ tail)) = none := by
  obtain ⟨indent, s, split, noBlank⟩ := text_eq_of_opening? h
  have stop : Stops isSpaceOrTab (c :: (s ++ tail)) := by
    refine stops_cons.mpr ?_
    cases space : isSpaceOrTab c with
    | false => rfl
    | true =>
      rw [isBlank_of_isSpaceOrTab space] at noBlank
      cases noBlank
  rw [split, List.append_assoc, List.cons_append, dropSpaces_append indent.2 stop]
  exact after?_eq_none first rfl differ

end Entry

/-! ## What stands behind a line -/

/-- The words of a license line. -/
abbrev licenseWord : Text := "SPDX-License-Identifier:"

theorem OtherLine.not_license (o : OtherLine) {part : Text} (inside : part <:+: o.text) :
    ¬ licenseWord <+: dropBlanks part := by
  intro h
  have shorter : "SPDX-License-Identifier".toList <+: licenseWord := ⟨[':'], by decide⟩
  have word := (shorter.trans h).isInfix.trans (List.dropWhile_suffix _).isInfix
  exact o.withoutLicense (word.trans inside)

/-- No entry begins with the words of a license line, not even after white space. -/
theorem Entry.not_license (e : Entry) : ¬ licenseWord <+: dropBlanks e.text := by
  cases h : e.opening? with
  | some c =>
    obtain ⟨indent, s, split, noBlank⟩ := text_eq_of_opening? h
    have blank : ∀ d ∈ indent.1, isBlank d = true := fun d member =>
      isBlank_of_isSpaceOrTab (indent.2 d member)
    rw [split, dropBlanks_append blank (stops_cons.mpr noBlank)]
    rintro ⟨rest, same⟩
    have first : licenseWord.head? = some c := by
      have := congrArg List.head? same
      simpa using this
    have : licenseWord.head? = some 'S' := rfl
    rw [this] at first
    cases first
    cases e with
    | missing path => cases h
    | own l => cases l <;> cases h
  | none =>
    cases e with
    | missing path => cases h
    | own l =>
      cases l with
      | other o => exact o.not_license (List.infix_refl _)
      | _ => cases h

/-- The words do not come about by what follows at a line end. -/
theorem not_license_before {part tail : Text} (other : ¬ licenseWord <+: dropBlanks part)
    (break_ : AtBreak tail) (behind : after? licenseWord (dropBlanks tail) = none) :
    after? licenseWord (dropBlanks (part ++ tail)) = none := by
  rw [dropBlanks, List.dropWhile_append]
  split
  · exact behind
  · cases read : after? licenseWord (part.dropWhile isBlank ++ tail) with
    | none => rfl
    | some rest => exact absurd (isPrefix_of_after? (by decide) read break_) other

/-- No flattened document begins with the words of a license line. -/
theorem not_license_text (page : Page Entry) :
    after? licenseWord (dropBlanks (page.text Entry.text)) = none := by
  obtain ⟨body, last⟩ := page
  induction body with
  | nil =>
    have := not_license_before last.not_license atBreak_nil rfl
    simpa using this
  | cons e body ih =>
    rw [Page.text_cons]
    exact not_license_before e.not_license (atBreak_cons _) ih

/-- Behind a line no words of a license line follow, not even after white space. -/
theorem not_license_behind {tail : Text} (h : Page.Tail Entry.text tail) :
    after? licenseWord (dropBlanks tail) = none := by
  cases h with
  | last => rfl
  | more page => exact not_license_text page

/-! ## License lines -/

theorem license_takes (l : LicenseLine) {tail : Text} (h : AtBreak tail) :
    Preamble.license none (licenseText l.indent l.gap l.rest.1 ++ tail) =
      some ((), tail.drop 1) := by
  have slashes : ∀ s, Stops isSpaceOrTab ("//".toList ++ s) := fun s => stops_append rfl (by decide)
  have word : ∀ s, Stops isBlank (licenseWord ++ s) := fun s => stops_append rfl (by decide)
  have line : (l.rest.1 ++ tail).dropWhile (· != '\n') = tail := by
    refine dropWhile_append_of_stops ?_ (h.stops (by decide))
    intro c member
    have : c ≠ '\n' := fun same => l.rest.2 (same ▸ member)
    simpa using this
  simp only [Preamble.license, atLineStart, if_true, licenseText, List.append_assoc,
    dropSpaces_append l.indent.2 (slashes _), after?_append, Option.bind_eq_bind, Option.bind_some,
    dropBlanks_append (fun c member => (l.gap.2 c member).1) (word _), line]
  cases tail <;> rfl

/-- Where no slashes begin a line, or no words of a license line follow them, there is none. -/
theorem license_eq_none {s : Text}
    (h : ∀ rest, after? "//" (dropSpaces s) = some rest →
      after? licenseWord (dropBlanks rest) = none) :
    Preamble.license none s = none := by
  simp only [Preamble.license, atLineStart, if_true, Option.bind_eq_bind]
  cases slashes : after? "//" (dropSpaces s) with
  | none => rfl
  | some rest => simp only [Option.bind_some, h rest slashes, Option.bind_none]

theorem license_passes {e : Entry} (h : e.license? = none) {tail : Text}
    (follows : Page.Tail Entry.text tail) : Preamble.license none (e.text ++ tail) = none := by
  refine license_eq_none fun rest slashes => ?_
  cases e with
  | missing path =>
    -- The comment goes on with a word of its own.
    have split : Entry.text (.missing path) ++ tail =
        "//".toList ++ (" ".toList ++ ("Import not found: ".toList ++ (path.1 ++ tail))) := rfl
    have stop : Stops isBlank ("Import not found: ".toList ++ (path.1 ++ tail)) :=
      stops_append rfl (by decide)
    rw [split, dropSpaces, dropWhile_of_stops (stops_append rfl (by decide)),
      after?_append] at slashes
    cases slashes
    rw [dropBlanks_append (by decide) stop]
    exact after?_eq_none rfl rfl (by decide)
  | own l =>
    cases l with
    | license l => cases h
    | other o =>
      rw [Entry.text, Line.text, dropSpaces,
        dropWhile_append_of_atBreak (by decide) (atBreak_of_tail follows)] at slashes
      obtain ⟨part, split⟩ := isPrefix_of_after? (by decide) slashes (atBreak_of_tail follows)
      rw [← split, List.append_assoc, after?_append] at slashes
      cases slashes
      have inside : part <:+: o.text :=
        (List.IsSuffix.isInfix ⟨_, split⟩).trans (List.dropWhile_suffix _).isInfix
      exact not_license_before (o.not_license inside) (atBreak_of_tail follows)
        (not_license_behind follows)
    | _ =>
      rw [Entry.after?_text_eq_none rfl rfl (by decide) tail] at slashes
      cases slashes

/-- The recogniser of license lines treats flattened documents line by line. -/
theorem license_reads : Reads Preamble.license Entry.text Entry.license? := by
  refine Reads.of_lineStart (fun _ _ => rfl) Entry.text_single ?_
    (fun h follows => license_passes h follows) ?_
  · intro e a tail h follows
    cases e with
    | missing path => cases h
    | own l =>
      cases l with
      | license l => exact license_takes l (atBreak_of_tail follows)
      | _ => cases h
  · intro e a h
    cases e with
    | missing path => cases h
    | own l =>
      cases l with
      | license l => simp [Entry.text, Line.text, licenseText]
      | _ => cases h

/-! ## Version pragmas -/

theorem afterStatement_trailing (trailing : Spaces) {tail : Text} (h : AtBreak tail) :
    Preamble.afterStatement (trailing.1 ++ tail) = tail.drop 1 := by
  have read := dropSpaces_append trailing.2 (h.stops (p := isSpaceOrTab) (by decide))
  rw [Preamble.afterStatement, read]
  cases tail with
  | nil => rfl
  | cons c tail =>
    have : c = '\n' := h c (by simp)
    subst this
    rfl

theorem pragma_stops (s : Text) : Stops isSpaceOrTab ("pragma".toList ++ s) :=
  stops_append rfl (by decide)

theorem solidity_stops (s : Text) : Stops isBlank ("solidity".toList ++ s) :=
  stops_append rfl (by decide)

theorem version_takes (v : VersionLine) {tail : Text} (h : AtBreak tail) :
    Preamble.versionPragma none (versionText v.indent v.gap v.body v.trailing ++ tail) =
      some ((), tail.drop 1) := by
  have plain : ∀ c ∈ v.body.1, (c != ';') = true := by
    intro c member
    simpa using (v.body.2 c member).1
  have semicolon : Stops (· != ';') (";".toList ++ (v.trailing.1 ++ tail)) :=
    stops_append rfl (by decide)
  obtain ⟨c, d, s, body, blank⟩ := v.startsBlank
  simp only [Preamble.versionPragma, atLineStart, if_true, versionText, List.append_assoc,
    dropSpaces_append v.indent.2 (pragma_stops _), after?_append, Option.bind_eq_bind,
    Option.bind_some, DirectiveLine.dropBlanks1?_gap v.gap (solidity_stops _),
    takeWhile_append_of_stops plain semicolon, dropWhile_append_of_stops plain semicolon]
  rw [body]
  change (if isBlank c then some ((), Preamble.afterStatement (v.trailing.1 ++ tail)) else none) = _
  rw [if_pos blank, afterStatement_trailing v.trailing h]

/-! ## Feature pragmas -/

theorem name_head (feature : Preamble.Feature) :
    ∃ c, feature.name.head? = some c ∧ isBlank c = false ∧ c ≠ 'e' ∧ c ≠ 's' := by
  cases feature with
  | abicoder => exact ⟨'a', rfl, by decide, by decide, by decide⟩
  | abiEncoderV2 => exact ⟨'A', rfl, by decide, by decide, by decide⟩
  | smtChecker => exact ⟨'S', rfl, by decide, by decide, by decide⟩

/-- How a feature begins with its quote. -/
theorem quoted_head (quote : Option Quote) (feature : Preamble.Feature) (s : Text) :
    ∃ c, (quoteText quote ++ (feature.name ++ s)).head? = some c ∧ isBlank c = false ∧ c ≠ 'e' ∧
      c ≠ 's' := by
  cases quote with
  | none =>
    obtain ⟨c, first, other⟩ := name_head feature
    refine ⟨c, ?_, other⟩
    rw [quoteText, List.nil_append, List.head?_append, first]
    rfl
  | some quote =>
    obtain ⟨c, hc⟩ := quote
    refine ⟨c, rfl, Import.isBlank_of_isQuote hc, ?_⟩
    rcases Import.isQuote_eq_true hc with rfl | rfl <;> decide

theorem quoted_stops (quote : Option Quote) (feature : Preamble.Feature) (s : Text) :
    Stops isBlank (quoteText quote ++ (feature.name ++ s)) := by
  obtain ⟨c, first, noBlank, _⟩ := quoted_head quote feature s
  intro d member
  rw [first, Option.mem_some_iff] at member
  exact member ▸ noBlank

/-- What follows `pragma` and white space in a feature pragma begins like no `solidity`. -/
theorem experimental_head (experimental : Option Gap1) (quote : Option Quote)
    (feature : Preamble.Feature) (s : Text) :
    ∃ c,
      (experimentalText experimental ++ (quoteText quote ++ (feature.name ++ s))).head? = some c ∧
      isBlank c = false ∧ c ≠ 's' := by
  cases experimental with
  | none =>
    obtain ⟨c, first, noBlank, _, other⟩ := quoted_head quote feature s
    exact ⟨c, first, noBlank, other⟩
  | some gap => exact ⟨'e', rfl, by decide, by decide⟩

theorem experimental_stops (experimental : Option Gap1) (quote : Option Quote)
    (feature : Preamble.Feature) (s : Text) :
    Stops isBlank (experimentalText experimental ++ (quoteText quote ++ (feature.name ++ s))) := by
  obtain ⟨c, first, noBlank, _⟩ := experimental_head experimental quote feature s
  intro d member
  rw [first, Option.mem_some_iff] at member
  exact member ▸ noBlank

theorem afterExperimental?_text (experimental : Option Gap1) (quote : Option Quote)
    (feature : Preamble.Feature) (s : Text) :
    (Preamble.afterExperimental?
        (experimentalText experimental ++ (quoteText quote ++ (feature.name ++ s)))).getD
      (experimentalText experimental ++ (quoteText quote ++ (feature.name ++ s))) =
        quoteText quote ++ (feature.name ++ s) := by
  cases experimental with
  | none =>
    obtain ⟨c, first, _, other, _⟩ := quoted_head quote feature s
    have noWord : after? "experimental" (quoteText quote ++ (feature.name ++ s)) = none :=
      after?_eq_none rfl first (Ne.symm other)
    simp only [experimentalText_none, List.nil_append, Preamble.afterExperimental?,
      Option.bind_eq_bind, noWord, Option.bind_none, Option.getD_none]
  | some gap =>
    simp only [experimentalText_some, List.append_assoc, Preamble.afterExperimental?,
      Option.bind_eq_bind, after?_append, Option.bind_some,
      DirectiveLine.dropBlanks1?_gap gap (quoted_stops quote feature s), Option.getD_some]

theorem dropQuote_text (quote : Option Quote) (feature : Preamble.Feature) (s : Text) :
    Preamble.dropQuote (quoteText quote ++ (feature.name ++ s)) = feature.name ++ s := by
  cases quote with
  | none => cases feature <;> rfl
  | some quote =>
    obtain ⟨c, hc⟩ := quote
    rcases Import.isQuote_eq_true hc with rfl | rfl <;> rfl

theorem takeFeature?_name (feature : Preamble.Feature) {s : Text} (stop : Stops isWordChar s) :
    Preamble.takeFeature? (feature.name ++ s) = some (feature, s) := by
  have others : ∀ other, other ≠ feature → after? other.name (feature.name ++ s) = none := by
    intro other differ
    cases other <;> cases feature
    all_goals first | exact absurd rfl differ | exact after?_eq_none rfl rfl (by decide)
  have wordEnd := atWordEnd_of_stops stop
  simp only [Preamble.takeFeature?, Preamble.Feature.all, List.findSome?_cons, List.findSome?_nil]
  cases feature with
  | abicoder => simp only [after?_append, wordEnd, if_true]
  | abiEncoderV2 =>
    simp only [others .abicoder (by decide), after?_append, wordEnd, if_true]
  | smtChecker =>
    simp only [others .abicoder (by decide), others .abiEncoderV2 (by decide), after?_append,
      wordEnd,
      if_true]

theorem feature_takes (f : FeatureLine) {tail : Text} (h : AtBreak tail) :
    Preamble.featurePragma none (featureText f.indent f.gap f.experimental f.quote f.feature f.body
      f.trailing ++ tail) = some (f.feature, tail.drop 1) := by
  have plain : ∀ c ∈ f.body.1, (c != ';' && c != '\n') = true := by
    intro c member
    simpa using f.body.2 c member
  have semicolon : Stops (fun c => c != ';' && c != '\n') (";".toList ++ (f.trailing.1 ++ tail)) :=
    stops_append rfl (by decide)
  have wordEnd : Stops isWordChar (f.body.1 ++ (";".toList ++ (f.trailing.1 ++ tail))) := by
    have ends := f.wordEnds
    cases body : f.body.1 with
    | nil => exact Import.semicolon_stops (by decide) _
    | cons c rest =>
      rw [body] at ends
      exact stops_cons.mpr (stops_cons.mp ends)
  simp only [Preamble.featurePragma, atLineStart, if_true, featureText, List.append_assoc,
    dropSpaces_append f.indent.2 (pragma_stops _), after?_append, Option.bind_eq_bind,
    Option.bind_some, DirectiveLine.dropBlanks1?_gap f.gap (experimental_stops _ _ _ _),
    afterExperimental?_text, dropQuote_text, takeFeature?_name f.feature wordEnd,
    dropWhile_append_of_stops plain semicolon]
  change some (f.feature, Preamble.afterStatement (f.trailing.1 ++ tail)) = _
  rw [afterStatement_trailing f.trailing h]

/-! ## Pragma lines and other lines -/

/-- No word behind `pragma` is read from another line. -/
theorem OtherLine.not_pragma (o : OtherLine) {tail : Text} (break_ : AtBreak tail) :
    after? "pragma" (dropSpaces (o.text ++ tail)) = none := by
  cases word : after? "pragma" (dropSpaces (o.text ++ tail)) with
  | none => rfl
  | some rest => exact absurd (isInfix_of_after?_dropSpaces (by decide) word break_) o.withoutPragma

/-- Where no `pragma` begins a line, or no `solidity` follows it, there is none. -/
theorem version_eq_none {s : Text}
    (h : ∀ rest, after? "pragma" (dropSpaces s) = some rest →
      (dropBlanks1? rest).bind (after? "solidity") = none) :
    Preamble.versionPragma none s = none := by
  simp only [Preamble.versionPragma, atLineStart, if_true, Option.bind_eq_bind]
  cases word : after? "pragma" (dropSpaces s) with
  | none => rfl
  | some rest =>
    rw [Option.bind_some, ← Option.bind_assoc, h rest word]
    rfl

theorem version_passes {e : Entry} (h : e.version? = none) {tail : Text}
    (follows : Page.Tail Entry.text tail) :
    Preamble.versionPragma none (e.text ++ tail) = none := by
  refine version_eq_none fun rest word => ?_
  cases e with
  | missing path =>
    rw [Entry.after?_text_eq_none rfl rfl (by decide) tail] at word
    cases word
  | own l =>
    cases l with
    | version v => cases h
    | feature f =>
      simp only [Entry.text, Line.text, featureText, List.append_assoc,
        dropSpaces_append f.indent.2 (pragma_stops _), after?_append, Option.some.injEq] at word
      obtain ⟨c, first, _, other⟩ := experimental_head f.experimental f.quote f.feature
        (f.body.1 ++ (";" ++ (f.trailing.1 ++ tail)))
      rw [← word, DirectiveLine.dropBlanks1?_gap f.gap (experimental_stops _ _ _ _),
        Option.bind_some]
      exact after?_eq_none rfl first (Ne.symm other)
    | other o =>
      rw [Entry.text, Line.text, o.not_pragma (atBreak_of_tail follows)] at word
      cases word
    | _ =>
      rw [Entry.after?_text_eq_none rfl rfl (by decide) tail] at word
      cases word

/-- The recogniser of version pragmas treats flattened documents line by line. -/
theorem version_reads : Reads Preamble.versionPragma Entry.text Entry.version? := by
  refine Reads.of_lineStart (fun _ _ => rfl) Entry.text_single ?_
    (fun h follows => version_passes h follows) ?_
  · intro e a tail h follows
    cases e with
    | missing path => cases h
    | own l =>
      cases l with
      | version v => exact version_takes v (atBreak_of_tail follows)
      | _ => cases h
  · intro e a h
    cases e with
    | missing path => cases h
    | own l =>
      cases l with
      | version v => simp [Entry.text, Line.text, versionText]
      | _ => cases h

/-- Where no `pragma` begins a line, or no feature follows it, there is none. -/
theorem feature_eq_none {s : Text}
    (h : ∀ rest, after? "pragma" (dropSpaces s) = some rest →
      ∀ behind, dropBlanks1? rest = some behind →
        Preamble.takeFeature?
            (Preamble.dropQuote ((Preamble.afterExperimental? behind).getD behind)) =
          none) :
    Preamble.featurePragma none s = none := by
  simp only [Preamble.featurePragma, atLineStart, if_true, Option.bind_eq_bind]
  cases word : after? "pragma" (dropSpaces s) with
  | none => rfl
  | some rest =>
    rw [Option.bind_some]
    cases blank : dropBlanks1? rest with
    | none => rfl
    | some behind => rw [Option.bind_some, h rest word behind blank, Option.bind_none]

theorem feature_passes {e : Entry} (h : e.feature? = none) {tail : Text}
    (follows : Page.Tail Entry.text tail) :
    Preamble.featurePragma none (e.text ++ tail) = none := by
  refine feature_eq_none fun rest word behind blank => ?_
  cases e with
  | missing path =>
    rw [Entry.after?_text_eq_none rfl rfl (by decide) tail] at word
    cases word
  | own l =>
    cases l with
    | feature f => cases h
    | version v =>
      simp only [Entry.text, Line.text, versionText, List.append_assoc,
        dropSpaces_append v.indent.2 (pragma_stops _), after?_append, Option.some.injEq] at word
      rw [← word, DirectiveLine.dropBlanks1?_gap v.gap (solidity_stops _)] at blank
      cases blank
      rfl
    | other o =>
      rw [Entry.text, Line.text, o.not_pragma (atBreak_of_tail follows)] at word
      cases word
    | _ =>
      rw [Entry.after?_text_eq_none rfl rfl (by decide) tail] at word
      cases word

/-- The recogniser of feature pragmas treats flattened documents line by line. -/
theorem feature_reads : Reads Preamble.featurePragma Entry.text Entry.feature? := by
  refine Reads.of_lineStart (fun _ _ => rfl) Entry.text_single ?_
    (fun h follows => feature_passes h follows) ?_
  · intro e a tail h follows
    cases e with
    | missing path => cases h
    | own l =>
      cases l with
      | feature f =>
        cases h
        exact feature_takes f (atBreak_of_tail follows)
      | _ => cases h
  · intro e a h
    cases e with
    | missing path => cases h
    | own l =>
      cases l with
      | feature f => simp [Entry.text, Line.text, featureText]
      | _ => cases h

end Flatten

end TokenForge

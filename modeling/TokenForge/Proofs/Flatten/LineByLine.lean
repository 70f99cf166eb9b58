import TokenForge.Proofs.Flatten.BlankLines
import TokenForge.Proofs.Flatten.Reference

/-!
# Flattening is line by line

On documents a flattening gives the solid lines of the reference
(`solidLines_flattenSource`).  The text of every expansion is the text of a page of
entries, so that each recogniser meets whole lines at every level: where a file ends and
the file around it goes on there is a line feed, and where a directive stood on the last
line an empty line is left.
-/

namespace TokenForge

namespace Flatten

open Text

/-! ## Pages of entries -/

/-- Dropping the preamble of a page drops the lines of the preamble. -/
theorem dropPreamble_text (page : Page Entry) :
    ∃ kept : Page Entry, Preamble.dropPreamble (page.text Entry.text) = kept.text Entry.text ∧
      kept.solid Entry.text = (page.solid Entry.text).filter (!·.isPreamble) := by
  refine ⟨(page.keep .empty fun e => e.license?.isNone).keep .empty fun e => e.version?.isNone,
    ?_, ?_⟩
  · rw [Preamble.dropPreamble, license_reads.remove_text Entry.text_empty,
      version_reads.remove_text Entry.text_empty]
  · rw [Page.solid_keep Entry.text_empty, Page.solid_keep Entry.text_empty, List.filter_filter]
    congr 1
    funext e
    cases hl : e.license? <;> cases hv : e.version? <;> simp [Entry.isPreamble, hl, hv]

/-- A feature pragma is not blank. -/
theorem isBlankLine_of_feature? {e : Entry} {feature : Preamble.Feature}
    (h : e.feature? = some feature) : isBlankLine e.text = false := by
  cases e with
  | missing path => cases h
  | own l =>
    cases l with
    | feature f =>
      refine List.all_eq_false.mpr ⟨'p', ?_, by decide⟩
      simp [Entry.text, Line.text, featureText]
    | _ => cases h

theorem firstPragmas_chars (on : List Preamble.Feature) (s : Text)
    (pieces : List (Piece Preamble.Feature)) :
    firstPragmas on (s.map .char ++ pieces) = s ++ firstPragmas on pieces := by
  induction s with
  | nil => rfl
  | cons c s ih => simp [firstPragmas, ih]

/-- The text of the first pragmas of a page is that of a page with the first pragmas. -/
theorem firstPragmas_text (on : List Preamble.Feature) (page : Page Entry) :
    ∃ kept : Page Entry, firstPragmas on (Text.pieces Preamble.featurePragma
        (page.text Entry.text)) = kept.text Entry.text ∧
      kept.solid Entry.text = keepFirst on (page.solid Entry.text) := by
  rw [feature_reads.pieces_text]
  obtain ⟨body, last⟩ := page
  induction body generalizing on with
  | nil =>
    rw [Page.solid_nil]
    cases h : last.feature? with
    | none =>
      refine ⟨⟨[], last⟩, ?_, ?_⟩
      · have := firstPragmas_chars on last.text []
        simpa [linePieces, firstPragmas] using this
      · rw [Page.solid_nil]
        split <;> simp [keepFirst, h]
    | some feature =>
      have solid := isBlankLine_of_feature? h
      by_cases known : feature ∈ on
      · refine ⟨⟨[], .empty⟩, ?_, ?_⟩
        · simp [linePieces, firstPragmas, known, Entry.text_empty]
        · have blank : isBlankLine Entry.empty.text = true := rfl
          simp [Page.solid_nil, blank, solid, keepFirst, h, known]
      · refine ⟨⟨[], last⟩, ?_, ?_⟩
        · simp [linePieces, firstPragmas, known]
        · simp [Page.solid_nil, solid, keepFirst, h, known]
  | cons e body ih =>
    rw [Page.solid_cons, List.flatMap_cons, List.append_assoc]
    cases h : e.feature? with
    | none =>
      obtain ⟨kept, text, lines⟩ := ih on
      refine ⟨⟨e :: kept.body, kept.last⟩, ?_, ?_⟩
      · rw [linePieces, firstPragmas_chars, text, Page.text_cons]
        simp
      · rw [Page.solid_cons, lines]
        split <;> simp [keepFirst, h]
    | some feature =>
      have solid := isBlankLine_of_feature? h
      by_cases known : feature ∈ on
      · obtain ⟨kept, text, lines⟩ := ih on
        refine ⟨kept, ?_, ?_⟩
        · simpa [linePieces, firstPragmas, known] using text
        · simpa [solid, keepFirst, h, known] using lines
      · obtain ⟨kept, text, lines⟩ := ih (on ++ [feature])
        refine ⟨⟨e :: kept.body, kept.last⟩, ?_, ?_⟩
        · rw [Page.text_cons, ← text]
          simp [linePieces, firstPragmas, known]
        · rw [Page.solid_cons, lines]
          simp [solid, keepFirst, h, known]

/-! ## Expansions of documents -/

/-- The texts of documents. -/
def texts (files : Assoc Document) : Assoc Text :=
  files.map fun file => (file.1, file.2.text Line.text)

theorem get?_texts (files : Assoc Document) (path : Text) :
    Assoc.get? (texts files) path = (Assoc.get? files path).map (Page.text Line.text) :=
  Assoc.get?_map _ files path

/-- The characters of a source stand at the beginning of its expansion. -/
theorem Expands.chars {lookup : Lookup} {importer : Option Text} {seen met : List Text}
    {pieces : List (Piece Import.Directive)} {e : Expansion} {s : Text}
    (h : Expands lookup importer seen (s.map .char ++ pieces) e met) :
    ∃ rest, Expands lookup importer seen pieces rest met ∧ e.render = s ++ rest.render ∧
      e.depth = rest.depth := by
  induction s generalizing e with
  | nil => exact ⟨e, h, rfl, rfl⟩
  | cons c s ih =>
    cases h with
    | char inner =>
      obtain ⟨rest, expands, text, deep⟩ := ih inner
      exact ⟨rest, expands, by rw [Expansion.render, text, List.cons_append], deep⟩

/-- An expansion is the text of a page with the solid lines of the walk, and what was met is the
same. -/
def Rendered (files : Assoc Document) (importer : Option LinePath) (seen : List Text)
    (lines : List Line) (e : Expansion) (met : List Text) : Prop :=
  ∃ flat : Page Entry, e.render = flat.text Entry.text ∧
    flat.solid Entry.text =
      (walk files importer seen lines).entries.filter (fun entry => !isBlankLine entry.text) ∧
    (walk files importer seen lines).after = met

section Walk

variable {files : Assoc Document} {importer : Option LinePath} {seen met : List Text}
  {l : Line} {d : DirectiveLine} {lines : List Line} {rest : Expansion}

theorem rendered_nil : Rendered files importer seen [] .done seen := by
  refine ⟨⟨[], .empty⟩, rfl, ?_, ?_⟩
  · rw [walk_nil]
    rfl
  · rw [walk_nil]

/-- A line that stays. -/
theorem Rendered.own {e : Expansion} (own : l.directive? = none)
    (text : e.render = l.text ++ '\n' :: rest.render)
    (h : Rendered files importer seen lines rest met) :
    Rendered files importer seen (l :: lines) e met := by
  obtain ⟨flat, same, solid, after⟩ := h
  refine ⟨⟨.own l :: flat.body, flat.last⟩, ?_, ?_, ?_⟩
  · rw [text, Page.text_cons, same]
    rfl
  · rw [Page.solid_cons, solid, walk_own own]
    cases blank : isBlankLine (Entry.own l).text <;> simp [List.filter, blank]
  · rw [walk_own own]
    exact after

/-- The last line of a source, if it stays. -/
theorem rendered_last {e : Expansion} (own : l.directive? = none) (text : e.render = l.text) :
    Rendered files importer seen [l] e seen := by
  refine ⟨⟨[], .own l⟩, text, ?_, ?_⟩
  · rw [Page.solid_nil, walk_own own, walk_nil]
    cases blank : isBlankLine (Entry.own l).text <;> simp [List.filter, blank]
  · rw [walk_own own, walk_nil]

/-- A directive whose path was met before. -/
theorem Rendered.duplicate (known : (d.target importer).1 ∈ seen)
    (h : Rendered files importer seen lines rest met) :
    Rendered files importer seen (.directive d :: lines)
      (.duplicate (d.target importer).1 rest) met := by
  obtain ⟨flat, same, solid, after⟩ := h
  refine ⟨flat, same, ?_, ?_⟩
  · rw [solid, walk_known known]
  · rw [walk_known known]
    exact after

/-- A directive whose path has no file. -/
theorem Rendered.missing (new : (d.target importer).1 ∉ seen)
    (absent : Assoc.get? files (d.target importer).1 = none)
    (h : Rendered files importer (seen ++ [(d.target importer).1]) lines rest met) :
    Rendered files importer seen (.directive d :: lines)
      (.missing (d.target importer).1 rest) met := by
  obtain ⟨flat, same, solid, after⟩ := h
  refine ⟨⟨.missing (d.target importer) :: flat.body, flat.last⟩, ?_, ?_, ?_⟩
  · rw [Expansion.render, Page.text_cons, same, missingComment_eq, List.append_assoc]
    rfl
  · rw [Page.solid_cons, solid, (walk_missing new absent).1]
    cases blank : isBlankLine (Entry.missing (d.target importer)).text <;>
      simp [List.filter, blank]
  · rw [(walk_missing new absent).2]
    exact after

/-- A directive whose path has a file. -/
theorem Rendered.file {document : Document} {inner : Expansion} {between : List Text}
    (new : (d.target importer).1 ∉ seen)
    (found : Assoc.get? files (d.target importer).1 = some document)
    (inside : Rendered files (some (d.target importer)) (seen ++ [(d.target importer).1])
      document.lines inner between)
    (h : Rendered files importer between lines rest met) :
    Rendered files importer seen (.directive d :: lines)
      (.file (d.target importer).1 inner rest) met := by
  obtain ⟨innerFlat, innerSame, innerSolid, rfl⟩ := inside
  obtain ⟨flat, same, solid, after⟩ := h
  obtain ⟨kept, dropped, keptSolid⟩ := dropPreamble_text innerFlat
  refine ⟨⟨kept.lines ++ flat.body, flat.last⟩, ?_, ?_, ?_⟩
  · rw [Expansion.render, Page.text_append, innerSame, dropped, same]
    simp
  · rw [Page.solid_append, keptSolid, innerSolid, solid, (walk_file new found).1,
      List.filter_append,
      List.filter_filter, List.filter_filter]
    simp only [Bool.and_comm]
  · rw [(walk_file new found).2]
    exact after

/-- What is known of expansions of documents that nest less than `n` deep. -/
def RenderedBelow (files : Assoc Document) (n : Nat) : Prop :=
  ∀ (importer : Option LinePath) (seen met : List Text) (document : Document) (e : Expansion),
    e.depth < n → Expands (Assoc.get? (texts files)) (importer.map Subtype.val) seen
      (Text.pieces Import.directive (document.text Line.text)) e met →
    Rendered files importer seen document.lines e met

/-- A directive line, if the files are known one level deeper and so is what follows. -/
theorem Rendered.directive {n : Nat} {e : Expansion} {covered : Text}
    {pieces : List (Piece Import.Directive)} (inside : RenderedBelow files n)
    (behind : ∀ seen rest, rest.depth < n + 1 →
      Expands (Assoc.get? (texts files)) (importer.map Subtype.val) seen pieces rest met →
      Rendered files importer seen lines rest met)
    (shallow : e.depth < n + 1)
    (h : Expands (Assoc.get? (texts files)) (importer.map Subtype.val) seen
      (.hit ⟨d.path.1⟩ covered :: pieces) e met) :
    Rendered files importer seen (.directive d :: lines) e met := by
  cases h with
  | duplicate known expands => exact .duplicate known (behind _ _ shallow expands)
  | missing new absent expands =>
    rw [get?_texts, Option.map_eq_none_iff] at absent
    exact .missing new absent (behind _ _ shallow expands)
  | file new found inner expands =>
    rw [get?_texts] at found
    obtain ⟨document, stored, rfl⟩ := Option.map_eq_some_iff.mp found
    simp only [Expansion.depth] at shallow
    exact .file new stored (inside (some (d.target importer)) _ _ document _ (by omega) inner)
      (behind _ _ (by omega) expands)

end Walk

/-- The expansion of a document is the text of a page with the solid lines of the walk. -/
theorem rendered_of_expands (files : Assoc Document) (n : Nat) : RenderedBelow files n := by
  -- Inside a file the expansion nests less deep, behind it the lines are fewer.
  induction n with
  | zero =>
    intro importer seen met document e shallow
    omega
  | succ n inside =>
    intro importer seen met document e shallow h
    rw [directive_reads.pieces_text] at h
    obtain ⟨body, last⟩ := document
    induction body generalizing seen e with
    | nil =>
      rw [List.flatMap_nil, List.nil_append] at h
      cases own : last.directive? with
      | none =>
        rw [own, linePieces, ← List.append_nil (List.map _ _)] at h
        obtain ⟨rest, expands, text, _⟩ := h.chars
        cases expands
        exact rendered_last own (by simpa [Expansion.render] using text)
      | some directive =>
        cases last with
        | directive d =>
          refine .directive inside ?_ shallow h
          intro seen rest _ expands
          cases expands
          exact rendered_nil
        | _ => cases own
    | cons l body ih =>
      rw [List.flatMap_cons, List.append_assoc] at h
      cases own : l.directive? with
      | none =>
        rw [own, linePieces] at h
        obtain ⟨rest, expands, text, deep⟩ := h.chars
        exact .own own (by simpa using text) (ih seen rest (deep ▸ shallow) expands)
      | some directive =>
        cases l with
        | directive d => exact .directive inside ih shallow h
        | _ => cases own

/-! ## Whole documents -/

theorem keepFirst_solid (on : List Preamble.Feature) (entries : List Entry) :
    keepFirst on (entries.filter fun e => !isBlankLine e.text) =
      (keepFirst on entries).filter fun e => !isBlankLine e.text := by
  induction entries generalizing on with
  | nil => rfl
  | cons e entries ih =>
    cases h : e.feature? with
    | none =>
      cases blank : isBlankLine e.text <;> simp [List.filter, blank, keepFirst, h, ih]
    | some feature =>
      have solid := isBlankLine_of_feature? h
      by_cases known : feature ∈ on <;> simp [List.filter, solid, keepFirst, h, known, ih]

/-- Flattening a document in a map of documents gives, up to blank lines, the lines of the
reference. -/
theorem solidLines_flattenSource (files : Assoc Document) (source : Document) (limit : Int)
    {flat : Text} {t : Session}
    (run : runOn (flattenSource (Assoc.get? (texts files)) limit (source.text Line.text)) .empty =
      ⟨.ok flat, t⟩) :
    solidLines flat = (referenceLines files source).filter (!isBlankLine ·) := by
  obtain ⟨e, he, rfl, shallow⟩ := expands_of_flattenSource run
  obtain ⟨page, text, solid, _⟩ :=
    rendered_of_expands files _ none [] t.seen source e (Nat.lt_succ_self _) he
  obtain ⟨kept, first, lines⟩ := firstPragmas_text [] page
  rw [tidy, solidLines_collapseBlankLines, text]
  change solidLines (firstPragmas [] _) = _
  rw [first, Page.solidLines_text Entry.text_single, lines, solid, keepFirst_solid, referenceLines,
    List.filter_map]
  rfl

/-- A map of line-structured files is a map of documents. -/
theorem exists_texts_eq {files : Assoc Text} (structured : ∀ file ∈ files, LineStructured file.2) :
    ∃ documents : Assoc Document, texts documents = files := by
  induction files with
  | nil => exact ⟨[], rfl⟩
  | cons file files ih =>
    obtain ⟨document, text⟩ := (exists_document_iff file.2).mpr (structured file (by simp))
    obtain ⟨documents, rest⟩ := ih fun other member => structured other (.tail _ member)
    refine ⟨(file.1, document) :: documents, ?_⟩
    rw [← rest]
    simp [texts, text]

/-- A line-structured source in a map of line-structured files is a document in a map of documents.
However it is read as one, whenever its flattening ends well the lines of the result that are not
blank are those of the reference. -/
theorem flattenSource_lineByLine (files : Assoc Text) (source : Text)
    (filesStructured : ∀ file ∈ files, LineStructured file.2) (structured : LineStructured source) :
    (∃ (documents : Assoc Document) (document : Document),
      texts documents = files ∧ document.text Line.text = source) ∧
    ∀ (documents : Assoc Document) (document : Document), texts documents = files →
      document.text Line.text = source → ∀ (limit : Int) (flat : Text) (t : Session),
        runOn (flattenSource (Assoc.get? files) limit source) .empty = ⟨.ok flat, t⟩ →
        solidLines flat = (referenceLines documents document).filter (!isBlankLine ·) := by
  constructor
  · obtain ⟨documents, same⟩ := exists_texts_eq filesStructured
    obtain ⟨document, text⟩ := (exists_document_iff source).mpr structured
    exact ⟨documents, document, same, text⟩
  · rintro documents document rfl rfl limit flat t run
    exact solidLines_flattenSource documents document limit run

/-! ## A source and two files -/

/-- A license line. -/
def plainLicense : LicenseLine where
  indent := noSpaces
  gap := oneSpace
  rest := ⟨" MIT", by decide⟩
  withoutImport := by decide +kernel

/-- A source with a license that imports a file twice. -/
def sampleSource : Document where
  body := [.license plainLicense, .directive (plainDirective ⟨"lib/A.sol", by decide⟩),
    .directive (plainDirective ⟨"lib/A.sol", by decide⟩)]
  last := .other ⟨"contract C;", by decide, by decide, by decide +kernel, by decide +kernel,
    by decide +kernel⟩

/-- The file, with a license, which imports another. -/
def sampleFile : Document where
  body := [.license plainLicense, .directive (plainDirective ⟨"./B.sol", by decide⟩)]
  last := .other ⟨"library A;", by decide, by decide, by decide +kernel, by decide +kernel,
    by decide +kernel⟩

/-- The other file. -/
def sampleOther : Document where
  body := []
  last := .other ⟨"library B;", by decide, by decide, by decide +kernel, by decide +kernel,
    by decide +kernel⟩

/-- The two files under their paths. -/
def sampleFiles : Assoc Document := [("lib/A.sol", sampleFile), ("lib/B.sol", sampleOther)]

/-- The text of the flattened source. -/
def sampleText : Text :=
  "// SPDX-License-Identifier: MIT\nlibrary B;\nlibrary A;\ncontract C;"

/-- Flattening the source gives its lines and those of the files, with one license. -/
theorem flattenSource_lineByLine_sampleSource :
    ∃ flat t, runOn (flattenSource (Assoc.get? (texts sampleFiles)) 20
        (sampleSource.text Line.text)) .empty = ⟨.ok flat, t⟩ ∧ flat = sampleText ∧
      solidLines flat = (referenceLines sampleFiles sampleSource).filter (!isBlankLine ·) := by
  have structured : ∀ file ∈ texts sampleFiles, LineStructured file.2 := by
    intro file member
    simp only [texts, sampleFiles, List.map_cons, List.map_nil, List.mem_cons,
      List.not_mem_nil, or_false] at member
    rcases member with rfl | rfl
    · exact (exists_document_iff _).mp ⟨sampleFile, rfl⟩
    · exact (exists_document_iff _).mp ⟨sampleOther, rfl⟩
  obtain ⟨_, lines⟩ := flattenSource_lineByLine (texts sampleFiles) (sampleSource.text Line.text)
    structured ((exists_document_iff _).mp ⟨sampleSource, rfl⟩)
  have answer : (runOn (flattenSource (Assoc.get? (texts sampleFiles)) 20
      (sampleSource.text Line.text)) .empty).answer = .ok sampleText := by
    decide +kernel
  generalize run : runOn (flattenSource (Assoc.get? (texts sampleFiles)) 20
    (sampleSource.text Line.text)) .empty = outcome at answer
  obtain ⟨flat, t⟩ := outcome
  cases answer
  exact ⟨_, t, rfl, rfl, lines sampleFiles sampleSource rfl rfl 20 _ t run⟩

end Flatten

end TokenForge

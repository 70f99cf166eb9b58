import TokenForge.Proofs.Flatten.RegularText

/-!
# License lines and version pragmas are those of the outermost source

What is inlined in the place of a directive is plain, ends in a line feed and stands where a part
starts.  So a source that is regular without its directives keeps the openings that it has, and
none is added (`Expands.regular`).
-/

namespace TokenForge

namespace Flatten

open Text Preamble
open Import (Closed closed_append closed_concat closed_nil mayStart)

/-! ## Expansions of regular sources -/

variable {lookup : Lookup} {importer : Option Text} {seen met : List Text}
  {pieces : List (Piece Import.Directive)} {e : Expansion}

/-- What stands behind `read` may be replaced by a text with the same openings. -/
structure Keeps (read own render : Text) : Prop where
  regular : ∀ before, Regular before (read ++ own) → Regular before (read ++ render)
  openings : ∀ {find : Recogniser Unit}, Partwise find →
    openings find (read ++ render) = openings find (read ++ own)

theorem Keeps.behind_closed {read own render : Text} (h : Keeps [] own render)
    (closed : Closed read) : Keeps read own render where
  regular before regular := by
    obtain ⟨first, later⟩ := (regular_append closed).mp regular
    exact (regular_append closed).mpr ⟨first, h.regular _ later⟩
  openings := by
    intro find partwise
    have same := h.openings partwise
    rw [List.nil_append, List.nil_append] at same
    rw [openings_append find closed, openings_append find closed, same]

/-- A plain text that ends in a line feed may be inserted. -/
theorem Keeps.insert {own render line : Text} (h : Keeps [] own render)
    (plain : Plain (line ++ ['\n'])) : Keeps [] own (line ++ ['\n'] ++ render) where
  regular before regular := by
    refine (regular_append (closed_concat rfl)).mpr ⟨plain.regular before, ?_⟩
    rw [charBefore_append]
    exact (h.regular before regular).atLineStart rfl
  openings := by
    intro find partwise
    have quiet : Preamble.openings find (line ++ ['\n']) = 0 := by
      rw [openings_eq_zero]
      intro p member
      by_contra opens
      exact (plain p member).2 (partwise.opening p (by simpa using opens))
    have same := h.openings partwise
    rw [List.nil_append] at same ⊢
    rw [openings_append find (closed_concat rfl), quiet, Nat.zero_add, same]

/-- A comment that names a path without line feeds and semicolons is plain. -/
theorem plain_missingComment {path : Text} (single : '\n' ∉ path ∧ ';' ∉ path) :
    Plain (missingComment path) := by
  have inside : ∀ c ∈ "// Import not found: ".toList ++ path, mayStart (some c) = false := by
    intro c member
    rw [mayStart, Bool.or_eq_false_iff, beq_eq_false_iff_ne, beq_eq_false_iff_ne]
    rcases List.mem_append.mp member with before | member
    · exact ⟨ne_of_mem_of_not_mem before (by decide), ne_of_mem_of_not_mem before (by decide)⟩
    · exact ⟨ne_of_mem_of_not_mem member single.1, ne_of_mem_of_not_mem member single.2⟩
  have isPart : IsPart ("// Import not found: ".toList ++ path) [] :=
    ⟨by simp, .inr rfl, fun c member => inside c (List.dropLast_subset _ member)⟩
  have alone := isPart.parts
  rw [List.append_nil] at alone
  refine plain_lineFeed (s := "// Import not found: ".toList ++ path) ?_
  intro p member
  rw [alone] at member
  rw [List.mem_singleton.mp member]
  refine ⟨⟨rfl, fun s read => by cases read⟩, ?_⟩
  rintro (license | version)
  · rw [opens_license] at license
    cases license
  · rw [opens_versionPragma] at version
    cases version

/-- The expansion of a source that is regular without its directives is regular, and the parts that
open with something are its own, if the inlined files are regular without theirs. -/
theorem Expands.keeps (h : Expands lookup importer seen pieces e met)
    (files : ∀ path ∈ e.asked, ∀ content, lookup path = some content →
      Regular none (remove Import.directive content))
    (named : ∀ path ∈ e.asked, lookup path = none → '\n' ∉ path ∧ ';' ∉ path) :
    (∀ inner ∈ e.inlined, Regular none inner) ∧
      ∀ read, Seamed read pieces → Keeps read e.own e.render := by
  induction h with
  | done => exact ⟨by simp [Expansion.inlined], fun read _ => ⟨fun _ h => h, fun _ => rfl⟩⟩
  | @char _ _ c _ rest _ _ ih =>
    obtain ⟨inlined, kept⟩ := ih files named
    refine ⟨inlined, fun read seamed => ?_⟩
    obtain ⟨regular, openings⟩ := kept (read ++ [c]) seamed
    rw [List.append_assoc, List.append_assoc] at regular openings
    exact ⟨regular, openings⟩
  | duplicate _ _ ih =>
    obtain ⟨inlined, kept⟩ := ih files named
    exact ⟨inlined, fun read seamed => (kept [] seamed.2).behind_closed seamed.1⟩
  | missing _ absent _ ih =>
    obtain ⟨inlined, kept⟩ := ih (fun path asked => files path (.tail _ asked))
      fun path asked => named path (.tail _ asked)
    refine ⟨inlined, fun read seamed => ?_⟩
    have plain := plain_missingComment (named _ (.head _) absent)
    exact ((kept [] seamed.2).insert plain).behind_closed seamed.1
  | @file _ _ d _ _ content inner _ _ _ _ found expands _ innerIh restIh =>
    obtain ⟨deeper, own⟩ := innerIh
      (fun path asked => files path (.tail _ (List.mem_append_left _ asked)))
      fun path asked => named path (.tail _ (List.mem_append_left _ asked))
    obtain ⟨later, kept⟩ := restIh
      (fun path asked => files path (.tail _ (List.mem_append_right _ asked)))
      fun path asked => named path (.tail _ (List.mem_append_right _ asked))
    have regular : Regular none inner.render := by
      refine (own [] (seamed_pieces content)).regular none ?_
      rw [List.nil_append, expands.own_eq_remove]
      exact files _ (.head _) content found
    refine ⟨?_, fun read seamed => ?_⟩
    · rw [Expansion.inlined, List.forall_mem_cons, List.forall_mem_append]
      exact ⟨regular, deeper, later⟩
    · have plain := plain_lineFeed (plain_dropPreamble regular)
      exact ((kept [] seamed.2).insert plain).behind_closed seamed.1

/-! ## The outermost source -/

/-- The license lines and version pragmas of a source start lines, also when its directives are
left out, and none of them stands in a directive. -/
structure Outermost (source : Text) : Prop where
  regular : Regular none source
  undirected : Regular none (remove Import.directive source)
  outside : ∀ covered ∈ coveredByHits Import.directive source, ∀ part ∈ parts covered,
    ¬ Opening part

instance (source : Text) : Decidable (Outermost source) :=
  decidable_of_iff (_ ∧ _ ∧ _) ⟨fun h => ⟨h.1, h.2.1, h.2.2⟩,
    fun h => ⟨h.regular, h.undirected, h.outside⟩⟩

/-- Directives that cover no opening may be left out. -/
theorem openings_directives {find : Recogniser Unit} (before : Option Char) (s : Text) :
    ∀ front, (mayStart before = true → Closed front) →
      (∀ d covered, .hit d covered ∈ piecesFrom Import.directive 0 before s →
        openings find covered = 0) →
      openings find (front ++ s) = openings find (front ++
        (piecesFrom Import.directive 0 before s).flatMap (replacePiece fun _ => [])) := by
  induction before, s using scan_induction Import.directive_anchored with
  | done before => exact fun _ _ _ => rfl
  | miss before c s missed ih =>
    intro front _ outside
    rw [piecesFrom_miss missed] at outside ⊢
    have same := ih (front ++ [c]) closed_concat fun d covered member =>
      outside d covered (.tail _ member)
    simpa [replacePiece] using same
  | hit before covered rest d start some_text hit ih =>
    intro front closed outside
    rw [piecesFrom_hit hit some_text] at outside ⊢
    have same := ih [] (fun _ => closed_nil) fun d covered member =>
      outside d covered (.tail _ member)
    rw [List.nil_append, List.nil_append] at same
    have quiet := outside d covered (.head _)
    rw [List.flatMap_cons, replacePiece, List.nil_append, openings_append find (closed start),
      openings_append find (closed start), ← same]
    congr 1
    rcases Import.directive_ends hit with rfl | closed_covered
    · rw [List.append_nil, quiet]
      rfl
    · rw [openings_append find closed_covered, quiet, Nat.zero_add]

theorem Outermost.openings {source : Text} (h : Outermost source) {find : Recogniser Unit}
    (partwise : Partwise find) :
    openings find source = openings find (remove Import.directive source) := by
  refine openings_directives none source [] (fun _ => closed_nil) fun d covered member => ?_
  rw [openings_eq_zero]
  intro part inside
  by_contra opens
  refine h.outside covered ?_ part inside (partwise.opening part (by simpa using opens))
  exact List.mem_filterMap.mpr ⟨_, member, rfl⟩

/-- A source flattens to a text with as many license lines and version pragmas as the source has
itself, if they start lines in it and, apart from directives, in every file that is met, and if no
path of a comment for a missing file has a line feed or a semicolon.  Each file that is inlined,
however deep, has lost them all, and would lose nothing if they were dropped once more.

Of texts in general only this much is so: they lose nothing if they are dropped once more if and
only if none were left. -/
theorem flatten_preambleOnce (lookup : Lookup) (limit : Int) (source : Text)
    (outermost : Outermost source) {flat : Text} {t : Session}
    (run : runOn (flatten lookup limit source 0 none) .empty = ⟨.ok flat, t⟩)
    (files : ∀ path ∈ t.seen, ∀ content, lookup path = some content →
      Regular none (remove Import.directive content))
    (named : ∀ path ∈ t.unresolved, '\n' ∉ path ∧ ';' ∉ path) :
    (hits license flat).length = (hits license source).length ∧
    (hits versionPragma flat).length = (hits versionPragma source).length ∧
    (∃ e, Expands lookup none [] (Text.pieces Import.directive source) e t.seen ∧
      flat = e.render ∧ ∀ inner ∈ e.inlined, hits license (dropPreamble inner) = [] ∧
        hits versionPragma (dropPreamble inner) = [] ∧
        dropPreamble (dropPreamble inner) = dropPreamble inner) ∧
    ∀ text, dropPreamble (dropPreamble text) = dropPreamble text ↔
      hits license (dropPreamble text) = [] ∧ hits versionPragma (dropPreamble text) = [] := by
  obtain ⟨e, he, rfl, _, _⟩ := expands_of_flattenAt run
  have grows : Growing lookup (flatten lookup limit source 0 none) :=
    grows_flatten limit source 0 none
  obtain ⟨asked, grown⟩ := grows .empty
  rw [run] at grown
  have same : asked = e.asked := grown.seen.symm.trans he.met_eq
  have unresolved : t.unresolved = e.asked.filter fun path => (lookup path).isNone :=
    same ▸ grown.unresolved
  have met : t.seen = e.asked := he.met_eq
  obtain ⟨inlined, kept⟩ := he.keeps (by rwa [met] at files) fun path asked absent => named path (by
    rw [unresolved, List.mem_filter]
    exact ⟨asked, by rw [absent]; rfl⟩)
  have keeps := kept [] (seamed_pieces source)
  rw [he.own_eq_remove] at keeps
  have regular := keeps.regular none outermost.undirected
  have counted : ∀ {find : Recogniser Unit}, Partwise find →
      (hits find e.render).length = (hits find source).length := by
    intro find partwise
    calc (hits find e.render).length
      _ = openings find e.render := partwise.hits_length regular
      _ = openings find (remove Import.directive source) := keeps.openings partwise
      _ = openings find source := (outermost.openings partwise).symm
      _ = (hits find source).length := (partwise.hits_length outermost.regular).symm
  refine ⟨counted partwise_license, counted partwise_versionPragma, ⟨e, he, rfl, ?_⟩,
    fun text => dropPreamble_eq_self_iff⟩
  intro inner member
  have plain := plain_dropPreamble (inlined inner member)
  exact ⟨plain.hits.1, plain.hits.2, dropPreamble_dropPreamble (inlined inner member)⟩

/-! ## A source with two files of their own licenses -/

/-- A source with a license, a version and an import. -/
def licensedSource : Text :=
  "// SPDX-License-Identifier: MIT\npragma solidity ^0.8.20;\n".toList ++
    "import \"lib/A.sol\";\ncontract C \x7b\x7d\n"

/-- Two files, each with a license and a version, of which the first imports the second and one
that is missing. -/
def licensedFiles : Assoc Text :=
  [("lib/A.sol",
      "// SPDX-License-Identifier: MIT\npragma solidity ^0.8.0;\n".toList ++
        "import \"./B.sol\";\nimport \"gone.sol\";\nlibrary A \x7b\x7d\n"),
    ("lib/B.sol",
      "//SPDX-License-Identifier: GPL-3.0\n".toList ++
        "pragma  solidity >=0.8.0 <0.9.0; // both\nlibrary B \x7b\x7d\n")]

/-- The flattened source has one license line and one version pragma. -/
theorem flatten_preambleOnce_licensedFiles :
    ∃ flat t, runOn (flatten (Assoc.get? licensedFiles) 20 licensedSource 0 none) .empty =
        ⟨.ok flat, t⟩ ∧
      t.seen = ["lib/A.sol".toList, "lib/B.sol".toList, "gone.sol".toList] ∧
      (hits license flat).length = 1 ∧ (hits versionPragma flat).length = 1 := by
  have ends : (runOn (flatten (Assoc.get? licensedFiles) 20 licensedSource 0 none) .empty).answer =
      .ok ("// SPDX-License-Identifier: MIT\npragma solidity ^0.8.20;\n" ++
        "// both\nlibrary B \x7b\x7d\n\n// Import not found: gone.sol\nlibrary A \x7b\x7d\n\n" ++
        "contract C \x7b\x7d\n").toList := by
    decide +kernel
  have met : (runOn (flatten (Assoc.get? licensedFiles) 20 licensedSource 0
      none) .empty).state.seen = ["lib/A.sol".toList, "lib/B.sol".toList, "gone.sol".toList] := by
    decide +kernel
  have missing : (runOn (flatten (Assoc.get? licensedFiles) 20 licensedSource 0
      none) .empty).state.unresolved = ["gone.sol".toList] := by
    decide +kernel
  generalize run : runOn (flatten (Assoc.get? licensedFiles) 20 licensedSource 0 none) .empty =
    outcome at ends met missing
  obtain ⟨answer, t⟩ := outcome
  cases ends
  have files : ∀ file ∈ licensedFiles, Regular none (remove Import.directive file.2) := by
    decide +kernel
  obtain ⟨licenses, versions, _⟩ := flatten_preambleOnce (Assoc.get? licensedFiles) 20
    licensedSource (by decide +kernel) run (fun path _ content found =>
      files _ (Assoc.mem_of_get? found)) (by
      dsimp only at missing
      rw [missing]
      decide)
  refine ⟨_, t, rfl, met, licenses.trans ?_, versions.trans ?_⟩
  · decide +kernel
  · decide +kernel

end Flatten

end TokenForge

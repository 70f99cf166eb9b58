import TokenForge.Assoc
import TokenForge.Proofs.Flatten.BlankLines
import TokenForge.Proofs.Flatten.Expansion
import TokenForge.Proofs.Import.Confined

/-!
# Flattened sources are self-contained

If every `import` of a source and of its files lies inside a directive, no directive is
left in a flattened source, and none has come up where its parts meet.  Every edit keeps
a free text free:

* a directive, a license line and a pragma start where a directive may start, so that what
  stands before them is closed, and so is what is put in their place (`free_trimmed`,
  `Expands.free`);
* a run of blank lines begins with white space, and with a line break it is replaced
  (`free_collapseBlankLines`).

Flattening such a text again asks for nothing, and changes nothing if no feature has a
second pragma.
-/

namespace TokenForge

namespace Flatten

open Text Import

/-! ## Trimming -/

/-- A text of pieces some hits of which are left out. -/
inductive Trimmed {α : Type} : List (Piece α) → Text → Prop where
  | nil : Trimmed [] []
  | char {c pieces s} : Trimmed pieces s → Trimmed (.char c :: pieces) (c :: s)
  | keep {a covered pieces s} :
    Trimmed pieces s → Trimmed (.hit a covered :: pieces) (covered ++ s)
  | drop {a covered pieces s} : Trimmed pieces s → Trimmed (.hit a covered :: pieces) s

theorem trimmed_remove {α : Type} (pieces : List (Piece α)) :
    Trimmed pieces (pieces.flatMap (replacePiece fun _ => [])) := by
  induction pieces with
  | nil => exact .nil
  | cons piece pieces ih =>
    cases piece with
    | char c => exact .char ih
    | hit a covered => exact .drop ih

theorem trimmed_firstPragmas (on : List Preamble.Feature)
    (pieces : List (Piece Preamble.Feature)) : Trimmed pieces (firstPragmas on pieces) := by
  induction pieces generalizing on with
  | nil => exact .nil
  | cons piece pieces ih =>
    cases piece with
    | char c => exact .char (ih on)
    | hit feature covered =>
      rw [firstPragmas]
      split
      · exact .drop (ih on)
      · exact .keep (ih _)

section Trimming

variable {α : Type} {start : Option Char → Bool} {find : Recogniser α}

/-- What follows a text that was read is trimmed from the position before it. -/
theorem free_trimmed (anchored : Anchored start find)
    (starts : ∀ {before}, start before = true → mayStart before = true)
    (before : Option Char) (s : Text) :
    ∀ front t, Free (front ++ s) → (mayStart before = true → Closed front) →
      Trimmed (piecesFrom find 0 before s) t → Free (front ++ t) := by
  induction before, s using scan_induction anchored with
  | done before =>
    intro front t free _ trimmed
    cases trimmed
    exact free
  | miss before c s none ih =>
    intro front t free _ trimmed
    rw [piecesFrom_miss none] at trimmed
    cases trimmed with
    | @char _ _ t trimmed =>
      have := ih (front ++ [c]) t (by simpa using free) closed_concat trimmed
      simpa using this
  | hit before covered rest a started some_text found ih =>
    intro front t free closed trimmed
    rw [piecesFrom_hit found some_text] at trimmed
    cases trimmed with
    | @keep _ _ _ t trimmed =>
      rw [← List.append_assoc] at free ⊢
      refine ih (front ++ covered) t free (fun last => ?_) trimmed
      rwa [closed_append some_text, Closed, ← charBefore_eq_getLast? before some_text]
    | drop trimmed =>
      -- Nothing is left of the hit, and what stands before it is closed.
      have closed_front := closed (starts started)
      have free_rest : Free rest := free.of_suffix ⟨front ++ covered, by simp⟩
      exact ih front t ((free.left (.inl closed_front)).append_of_closed closed_front free_rest)
        (fun _ => closed_front) trimmed

theorem free_of_trimmed (anchored : Anchored start find)
    (starts : ∀ {before}, start before = true → mayStart before = true) {s t : Text}
    (free : Free s) (trimmed : Trimmed (pieces find s) t) : Free t :=
  free_trimmed anchored starts none s [] t free (fun _ => closed_nil) trimmed

end Trimming

theorem free_dropPreamble {s : Text} (h : Free s) : Free (Preamble.dropPreamble s) := by
  have unlicensed : Free (remove Preamble.license s) :=
    free_of_trimmed Preamble.license_anchored mayStart_of_atLineStart h (trimmed_remove _)
  exact free_of_trimmed Preamble.versionPragma_anchored mayStart_of_atLineStart unlicensed
    (trimmed_remove _)

theorem free_firstPragmas (on : List Preamble.Feature) {s : Text} (h : Free s) :
    Free (firstPragmas on (pieces Preamble.featurePragma s)) :=
  free_of_trimmed Preamble.featurePragma_anchored mayStart_of_atLineStart h
    (trimmed_firstPragmas on _)

/-! ## Collapsing -/

section Collapsing

open BlankLines

variable (lineBreak : LineBreak) (s : Text)

theorem lineBreak_not_mem : ∀ c ∈ lineBreak.text, c ∉ "import".toList := by
  cases lineBreak <;> decide

theorem lineBreak_atBlank : AtBlank (lineBreak.text ++ s) := by
  cases lineBreak <;> exact fun c first => by cases first; decide

theorem closed_lineBreak : Closed (s ++ lineBreak.text) := by
  cases lineBreak with
  | lf => exact closed_concat rfl
  | crlf => exact (closed_append (by simp [LineBreak.text])).mpr rfl

variable {s}

theorem free_run {front blank rest : Text}
    (h : Free (front ++ (lineBreak.text ++ (blank ++ rest)))) :
    Free (front ++ (lineBreak.text ++ lineBreak.text ++ lineBreak.text) ++ rest) := by
  have front_free : Free front := h.left (.inr (lineBreak_atBlank lineBreak _))
  have rest_free : Free rest := h.of_suffix ⟨front ++ (lineBreak.text ++ blank), by simp⟩
  have letters := lineBreak_not_mem lineBreak
  simp only [← List.append_assoc]
  have breaks := ((front_free.append_of_forall letters).append_of_forall
    letters).append_of_forall letters
  exact breaks.append_of_closed (closed_lineBreak lineBreak _) rest_free

theorem free_collapseBlankLines (h : Free s) : Free (collapseBlankLines s) := by
  suffices behind : ∀ front, Free (front ++ s) → Free (front ++
      (piecesFrom run 0 none s).flatMap (replacePiece fun b => b.text ++ b.text ++ b.text)) from
    behind [] h
  clear h
  induction (none : Option Char), s using scan_induction run_anchored with
  | done before => exact fun front free => free
  | miss before c s none ih =>
    intro front free
    rw [piecesFrom_miss none]
    have := ih (front ++ [c]) (by simpa using free)
    simpa [replacePiece] using this
  | hit before covered rest lineBreak _ some_text hit ih =>
    intro front free
    obtain ⟨⟨blank, split, _⟩, _⟩ := run_eq_some hit
    rw [split] at free
    rw [piecesFrom_hit hit some_text, List.flatMap_cons, ← List.append_assoc]
    exact ih _ (free_run lineBreak free)

end Collapsing

/-! ## Inlining -/

/-- What a confined source becomes is free, if all its files are there and confined.  `read` is
what was read since the last directive. -/
theorem Expands.free {lookup : Lookup} {importer : Option Text} {seen met : List Text}
    {pieces : List (Piece Directive)} {e : Expansion}
    (h : Expands lookup importer seen pieces e met)
    (confined : ∀ path content, lookup path = some content → Confined content)
    (present : ∀ path ∈ e.asked, (lookup path).isSome = true) :
    ∀ read, Segmented read pieces → Free (read ++ e.render) := by
  induction h with
  | done =>
    intro read segmented
    simpa [Expansion.render, Segmented] using segmented
  | @char _ _ c _ _ _ _ ih =>
    intro read segmented
    have := ih present (read ++ [c]) segmented
    simpa [Expansion.render] using this
  | duplicate _ _ ih =>
    rintro read ⟨free, closed, segmented⟩
    exact free.append_of_closed closed (ih present [] segmented)
  | missing _ absent _ _ =>
    have := present _ (.head _)
    rw [absent] at this
    cases this
  | @file _ _ d _ _ content inner _ rest _ _ found _ _ innerIh restIh =>
    rintro read ⟨free, closed, segmented⟩
    have inner_free : Free inner.render :=
      innerIh (fun path asked => present path (.tail _ (List.mem_append_left _ asked))) []
        (segmented_of_confined (confined _ content found))
    have rest_free : Free rest.render :=
      restIh (fun path asked => present path (.tail _ (List.mem_append_right _ asked))) [] segmented
    have file_free : Free (Preamble.dropPreamble inner.render ++ "\n") :=
      (free_dropPreamble inner_free).append_of_forall (by decide)
    exact free.append_of_closed closed
      (file_free.append_of_closed (closed_concat rfl) rest_free)

theorem free_tidy (on : List Preamble.Feature) {s : Text} (h : Free s) : Free (tidy on s) :=
  free_collapseBlankLines (free_firstPragmas on h)

/-! ## Flattening again -/

section Again

variable (lookup : Lookup) {flat : Text}

theorem runOn_inlinePieces_chars (inlinePath : Text → Run Text) (importer : Option Text)
    (s : Text) (session : Session) :
    runOn (inlinePieces inlinePath importer (s.map .char)) session = ⟨.ok s, session⟩ := by
  induction s with
  | nil => rfl
  | cons c s ih => exact inlinePieces_cons_ok.mpr ⟨[c], session, s, rfl, ih, rfl⟩

theorem levelsFrom_pos_iff {limit : Int} : 0 < levelsFrom limit 0 ↔ 0 ≤ limit := by
  unfold levelsFrom
  omega

/-- A free text is not changed, if it may be flattened at all. -/
theorem runOn_flatten_free (free : Free flat) (limit : Int) (s : Session) :
    runOn (flatten lookup limit flat 0 none) s =
      if 0 ≤ limit then ⟨.ok flat, s⟩ else ⟨.error (.tooDeep limit), s⟩ := by
  rw [flatten]
  have enough := @levelsFrom_pos_iff limit
  cases levels : levelsFrom limit 0 with
  | zero =>
    rw [levels] at enough
    rw [if_neg (mt enough.mpr (Nat.lt_irrefl 0)), flattenAt, runOn_throw]
  | succ levels' =>
    rw [levels] at enough
    rw [if_pos (enough.mp (Nat.succ_pos _)), flattenAt_succ, free.pieces_eq,
      runOn_inlinePieces_chars]

/-- Flattening a free text tidies it, if it may be flattened at all, and meets no path. -/
theorem runOn_flattenSource_free (free : Free flat) (limit : Int) (s : Session) :
    ∃ t, t.seen = s.seen ∧ runOn (flattenSource lookup limit flat) s =
      ⟨if 0 ≤ limit then .ok (tidy s.features flat) else .error (.tooDeep limit), t⟩ := by
  rw [flattenSource, runOn_bind, runOn_flatten_free lookup free]
  by_cases enough : 0 ≤ limit
  · obtain ⟨t, kept, seen⟩ := runOn_keepFirstPragmas (pieces Preamble.featurePragma flat) s
    refine ⟨t, seen, ?_⟩
    simp only [if_pos enough, runOn_bind, kept, runOn_pure]
    rfl
  · refine ⟨s, rfl, ?_⟩
    simp only [if_neg enough]

theorem calls_flattenSource_free (free : Free flat) (limit : Int) (s : Session) :
    (runOn (flattenSource lookup limit flat) s).state.calls = s.calls := by
  obtain ⟨t, seen, run⟩ := runOn_flattenSource_free lookup free limit s
  have grows : Growing lookup (flattenSource lookup limit flat) := grows_flattenSource limit flat
  obtain ⟨asked, grown⟩ := grows s
  rw [run] at grown ⊢
  have none_asked : asked = [] := by
    have same := grown.seen
    rw [seen] at same
    exact List.self_eq_append_right.mp same
  rw [grown.calls, none_asked, List.append_nil]

theorem firstPragmas_of_nodup {on : List Preamble.Feature}
    {pieces : List (Piece Preamble.Feature)} (once : (on ++ found pieces).Nodup) :
    firstPragmas on pieces = pieces.flatMap Piece.text := by
  induction pieces generalizing on with
  | nil => rfl
  | cons piece pieces ih =>
    cases piece with
    | char c => rw [firstPragmas, ih once]; rfl
    | hit feature covered =>
      have split : on ++ found (.hit feature covered :: pieces) =
          (on ++ [feature]) ++ found pieces := by
        simp [found, Piece.found?]
      rw [split] at once
      have new : feature ∉ on := by
        intro member
        exact (List.nodup_append.mp (List.nodup_append.mp once).1).2.2 feature member feature
          (by simp) rfl
      rw [firstPragmas, if_neg new, ih once]
      rfl

/-- Tidying a second time does nothing, if no feature has a second pragma. -/
theorem tidy_tidy {on : List Preamble.Feature} {s : Text}
    (once : (hits Preamble.featurePragma (tidy on s)).Nodup) : tidy [] (tidy on s) = tidy on s := by
  rw [tidy, firstPragmas_of_nodup (by exact once), pieces_flatMap_text, tidy,
    collapseBlankLines_collapseBlankLines]

end Again

/-! ## Flattened sources -/

/-- If every `import` before white space or at the end of a text lies inside a directive, in a
source and in all files, then a flattening that ends well with every path resolved leaves no
directive.  Flattening the result again, through whatever look-up, asks for nothing; and if no
feature has two pragmas in it, the result stays as it is whenever files may nest at all, as they
may in the first flattening. -/
theorem flattenSource_selfContained (lookup : Lookup) (limit : Int) (source : Text)
    (sourceConfined : Confined source)
    (filesConfined : ∀ path content, lookup path = some content → Confined content)
    {flat : Text} {t : Session}
    (run : runOn (flattenSource lookup limit source) .empty = ⟨.ok flat, t⟩)
    (resolved : t.unresolved = []) :
    hits directive flat = [] ∧
      (∀ again limit' s, (runOn (flattenSource again limit' flat) s).state.calls = s.calls) ∧
      0 ≤ limit ∧
      ((hits Preamble.featurePragma flat).Nodup → ∀ again limit', 0 ≤ limit' →
        (runOn (flattenSource again limit' flat) .empty).answer = .ok flat) := by
  obtain ⟨e, he, rfl, _, unresolved⟩ := asked_of_flattenSource run
  have present : ∀ path ∈ e.asked, (lookup path).isSome = true := by
    rw [unresolved, List.filter_eq_nil_iff] at resolved
    simpa [Option.isSome_iff_ne_none] using resolved
  have free : Free (tidy [] e.render) :=
    free_tidy [] (he.free filesConfined present [] (segmented_of_confined sourceConfined))
  refine ⟨?_, fun again limit' s => calls_flattenSource_free again free limit' s, ?_, ?_⟩
  · rw [hits, free.pieces_eq]
    exact found_chars _
  · obtain ⟨_, _, _, shallow⟩ := expands_of_flattenSource run
    exact levelsFrom_pos_iff.mp (Nat.zero_lt_of_lt shallow)
  · intro once again limit' enough
    obtain ⟨_, _, same⟩ := runOn_flattenSource_free again free limit' .empty
    rw [same]
    exact (if_pos enough).trans (congrArg Except.ok (tidy_tidy once))

/-! ## A source and two files -/

/-- A source that has an import and the letters of the word in a comment. -/
def importingSource : Text :=
  "pragma abicoder v2;\nimport \"lib/A.sol\"; contract C \x7b\x7d // important\n"

/-- A file with two directives on a line, one of them for itself, and a file with preamble lines
and blank lines. -/
def importedFiles : Assoc Text :=
  [("lib/A.sol",
      "// SPDX-License-Identifier: MIT\nimport \"./B.sol\";import \"./A.sol\";\nlibrary A \x7b\x7d\n"),
    ("lib/B.sol",
      "pragma solidity ^0.8.0;\npragma abicoder v1;\n\n\n\n\n\nlibrary B \x7b\x7d\n")]

/-- The flattened source holds no directive and stays as it is when it is flattened without
files. -/
theorem flattenSource_selfContained_importedFiles :
    ∃ flat t, runOn (flattenSource (Assoc.get? importedFiles) 20 importingSource) .empty =
        ⟨.ok flat, t⟩ ∧
      flat = ("pragma abicoder v2;\n\n\nlibrary B \x7b\x7d\n\nlibrary A \x7b\x7d\n\n" ++
        " contract C \x7b\x7d // important\n").toList ∧
      hits directive flat = [] ∧
      (runOn (flattenSource (fun _ => none) 20 flat) .empty).answer = .ok flat := by
  have filesConfined : ∀ path content, Assoc.get? importedFiles path = some content →
      Confined content := by
    intro path content found
    have confined : ∀ file ∈ importedFiles, Confined file.2 := by decide +kernel
    exact confined _ (Assoc.mem_of_get? found)
  have answer : (runOn (flattenSource (Assoc.get? importedFiles) 20 importingSource) .empty).answer =
      .ok ("pragma abicoder v2;\n\n\nlibrary B \x7b\x7d\n\nlibrary A \x7b\x7d\n\n" ++
        " contract C \x7b\x7d // important\n").toList := by
    decide +kernel
  have resolved : (runOn (flattenSource (Assoc.get? importedFiles) 20
      importingSource) .empty).state.unresolved = [] := by
    decide +kernel
  generalize run : runOn (flattenSource (Assoc.get? importedFiles) 20 importingSource) .empty =
    outcome at answer resolved
  obtain ⟨flat, t⟩ := outcome
  cases answer
  obtain ⟨clean, _, _, again⟩ := flattenSource_selfContained (Assoc.get? importedFiles) 20
    importingSource (by decide +kernel) filesConfined run resolved
  exact ⟨_, t, rfl, rfl, clean, again (by decide +kernel) _ 20 (by decide)⟩

end Flatten

end TokenForge

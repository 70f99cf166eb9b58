import TokenForge.Proofs.Flatten.Session
import TokenForge.Proofs.Text.Scan

/-!
# Expansions

An *expansion* is what becomes of a source under a flattening, before it is put
together as a text: the characters of the source in their order, and at each of its
directives either nothing, or the comment for a missing file, or the expansion of the
file.  `Expansion.render` puts it together.

`Expands` is the relation between a source and its expansion.  It does not know about
levels: a directive is a duplicate if its path was met, otherwise the look-up decides.
A flattening ends well if and only if there is an expansion that is not too deep, and
then the text is the rendered expansion (`expands_of_flattenAt`,
`flattenAt_of_expands`).  What a run does is therefore proved by induction on
`Expands`, one case for each thing that can stand in the place of a piece.

Over finitely many files every source has an expansion, no deeper than there are files
that were not met (`exists_expands`), and never a second one (`Expands.unique`).
-/

namespace TokenForge

namespace Flatten

/-! ## Expansions -/

/-- What becomes of a source, piece by piece. -/
inductive Expansion where
  /-- The end of the source. -/
  | done
  /-- A character of the source. -/
  | char (c : Char) (rest : Expansion)
  /-- A directive whose path was met before. -/
  | duplicate (path : Text) (rest : Expansion)
  /-- A directive whose path has no file. -/
  | missing (path : Text) (rest : Expansion)
  /-- A directive whose path has a file. -/
  | file (path : Text) (inner rest : Expansion)

namespace Expansion

/-- The text of an expansion. -/
def render : Expansion → Text
  | done => []
  | char c rest => c :: rest.render
  | duplicate _ rest => rest.render
  | missing path rest => missingComment path ++ rest.render
  | file _ inner rest => Preamble.dropPreamble inner.render ++ "\n" ++ rest.render

/-- The characters of the source itself. -/
def own : Expansion → Text
  | done => []
  | char c rest => c :: rest.own
  | duplicate _ rest => rest.own
  | missing _ rest => rest.own
  | file _ _ rest => rest.own

/-- The paths that were asked for, in order. -/
def asked : Expansion → List Text
  | done => []
  | char _ rest => rest.asked
  | duplicate _ rest => rest.asked
  | missing path rest => path :: rest.asked
  | file path inner rest => path :: (inner.asked ++ rest.asked)

/-- The inlined files, each time with the characters that are its own. -/
def copies : Expansion → List (Text × Text)
  | done => []
  | char _ rest => rest.copies
  | duplicate _ rest => rest.copies
  | missing _ rest => rest.copies
  | file path inner rest => (path, inner.own) :: (inner.copies ++ rest.copies)

/-- The texts of the inlined files, as they are before license lines and version pragmas are
dropped from them. -/
def inlined : Expansion → List Text
  | done => []
  | char _ rest => rest.inlined
  | duplicate _ rest => rest.inlined
  | missing _ rest => rest.inlined
  | file _ inner rest => inner.render :: (inner.inlined ++ rest.inlined)

/-- How deep files nest. -/
def depth : Expansion → Nat
  | done => 0
  | char _ rest => rest.depth
  | duplicate _ rest => rest.depth
  | missing _ rest => rest.depth
  | file _ inner rest => max (inner.depth + 1) rest.depth

end Expansion

/-- `Expands lookup importer seen pieces e met`: from the paths `seen`, the pieces of a source
with the path `importer` become `e`, and the paths `met` have been met in the end. -/
inductive Expands (lookup : Lookup) :
    Option Text → List Text → List (Piece Import.Directive) → Expansion → List Text → Prop where
  | done {importer seen} : Expands lookup importer seen [] .done seen
  | char {importer seen c pieces rest met} :
    Expands lookup importer seen pieces rest met →
    Expands lookup importer seen (.char c :: pieces) (.char c rest) met
  | duplicate {importer seen d covered pieces rest met} :
    Import.resolve d.path importer ∈ seen →
    Expands lookup importer seen pieces rest met →
    Expands lookup importer seen (.hit d covered :: pieces)
      (.duplicate (Import.resolve d.path importer) rest) met
  | missing {importer seen d covered pieces rest met} :
    Import.resolve d.path importer ∉ seen →
    lookup (Import.resolve d.path importer) = none →
    Expands lookup importer (seen ++ [Import.resolve d.path importer]) pieces rest met →
    Expands lookup importer seen (.hit d covered :: pieces)
      (.missing (Import.resolve d.path importer) rest) met
  | file {importer seen d covered pieces content inner between rest met} :
    Import.resolve d.path importer ∉ seen →
    lookup (Import.resolve d.path importer) = some content →
    Expands lookup (some (Import.resolve d.path importer))
      (seen ++ [Import.resolve d.path importer]) (Text.pieces Import.directive content)
      inner between →
    Expands lookup importer between pieces rest met →
    Expands lookup importer seen (.hit d covered :: pieces)
      (.file (Import.resolve d.path importer) inner rest) met

variable {lookup : Lookup} {importer : Option Text} {seen met : List Text}
  {pieces : List (Piece Import.Directive)} {e : Expansion}

/-- A source has one expansion at most. -/
theorem Expands.unique {e' : Expansion} {met' : List Text}
    (h : Expands lookup importer seen pieces e met)
    (h' : Expands lookup importer seen pieces e' met') : e = e' ∧ met = met' := by
  induction h generalizing e' met' with
  | done =>
    cases h'
    exact ⟨rfl, rfl⟩
  | char _ ih =>
    cases h' with
    | char rest =>
      obtain ⟨rfl, rfl⟩ := ih rest
      exact ⟨rfl, rfl⟩
  | duplicate known _ ih =>
    cases h' with
    | duplicate _ rest =>
      obtain ⟨rfl, rfl⟩ := ih rest
      exact ⟨rfl, rfl⟩
    | missing new => exact absurd known new
    | file new => exact absurd known new
  | missing new absent _ ih =>
    cases h' with
    | duplicate known => exact absurd known new
    | missing _ _ rest =>
      obtain ⟨rfl, rfl⟩ := ih rest
      exact ⟨rfl, rfl⟩
    | file _ found =>
      rw [absent] at found
      cases found
  | file new found _ _ innerIh restIh =>
    cases h' with
    | duplicate known => exact absurd known new
    | missing _ absent =>
      rw [absent] at found
      cases found
    | file _ found' inner rest =>
      rw [found] at found'
      cases found'
      obtain ⟨rfl, rfl⟩ := innerIh inner
      obtain ⟨rfl, rfl⟩ := restIh rest
      exact ⟨rfl, rfl⟩

/-! ## What is met -/

/-- The paths that were met in the end are those met before and those asked for. -/
theorem Expands.met_eq (h : Expands lookup importer seen pieces e met) :
    met = seen ++ e.asked := by
  induction h with
  | done => simp [Expansion.asked]
  | char _ ih => exact ih
  | duplicate _ _ ih => exact ih
  | missing _ _ _ ih => simp [ih, Expansion.asked]
  | file _ _ _ _ innerIh restIh => simp [restIh, innerIh, Expansion.asked]

/-- No path is asked for twice, or after it was met. -/
theorem Expands.nodup (h : Expands lookup importer seen pieces e met) (unique : seen.Nodup) :
    met.Nodup := by
  have extended : ∀ {path : Text} {seen : List Text}, path ∉ seen → seen.Nodup →
      (seen ++ [path]).Nodup := by
    intro path seen new unique
    exact List.Nodup.append unique (by simp) (by simpa using new)
  induction h with
  | done => exact unique
  | char _ ih => exact ih unique
  | duplicate _ _ ih => exact ih unique
  | missing new _ _ ih => exact ih (extended new unique)
  | file new _ _ _ innerIh restIh => exact restIh (innerIh (extended new unique))

/-- The characters of an expansion are those that stand outside directives. -/
theorem Expands.own_eq (h : Expands lookup importer seen pieces e met) :
    e.own = pieces.flatMap (Text.replacePiece fun _ => []) := by
  induction h with
  | done => rfl
  | char _ ih => simp [Expansion.own, Text.replacePiece, ih]
  | duplicate _ _ ih => simp [Expansion.own, Text.replacePiece, ih]
  | missing _ _ _ ih => simp [Expansion.own, Text.replacePiece, ih]
  | file _ _ _ _ _ ih => simp [Expansion.own, Text.replacePiece, ih]

/-- The characters of the expansion of a source are the source without its directives. -/
theorem Expands.own_eq_remove {source : Text}
    (h : Expands lookup importer seen (Text.pieces Import.directive source) e met) :
    e.own = Text.remove Import.directive source := by
  rw [h.own_eq, Text.remove, Text.replace_eq]

/-- The characters of an inlined file are its text without its directives. -/
theorem Expands.copies_own (h : Expands lookup importer seen pieces e met) :
    ∀ copy ∈ e.copies, ∃ content, lookup copy.1 = some content ∧
      copy.2 = Text.remove Import.directive content := by
  induction h with
  | done => simp [Expansion.copies]
  | char _ ih => exact ih
  | duplicate _ _ ih => exact ih
  | missing _ _ _ ih => exact ih
  | file _ found inner _ innerIh restIh =>
    intro copy member
    simp only [Expansion.copies, List.mem_cons, List.mem_append] at member
    rcases member with rfl | early | late
    · exact ⟨_, found, inner.own_eq_remove⟩
    · exact innerIh copy early
    · exact restIh copy late

/-! ## Runs and expansions -/

/-- An inlined path ends well in three ways. -/
theorem inlineWith_ok {flattenFile : Text → Run Text} {path text : Text} {s t : Session} :
    runOn (inlineWith lookup flattenFile path) s = ⟨.ok text, t⟩ ↔
      (path ∈ s.seen ∧ text = [] ∧ t = s.afterDuplicate path) ∨
      (path ∉ s.seen ∧ lookup path = none ∧ text = missingComment path ∧
        t = s.afterMissing path) ∨
      (path ∉ s.seen ∧ ∃ content flat, lookup path = some content ∧
        runOn (flattenFile content) (s.afterAsking path) = ⟨.ok flat, t⟩ ∧
        text = Preamble.dropPreamble flat ++ "\n") := by
  rw [runOn_inlineWith]
  by_cases known : path ∈ s.seen
  · simp [known, eq_comm]
  · cases found : lookup path with
    | none => simp [known, eq_comm]
    | some content =>
      simp only [known, if_false, false_and, not_false_eq_true, true_and, false_or,
        Option.some.injEq, reduceCtorEq, runOn_bind_ok, runOn_pure, Outcome.mk.injEq,
        Except.ok.injEq]
      constructor
      · rintro ⟨flat, u, hrun, rfl, rfl⟩
        exact ⟨content, flat, rfl, hrun, rfl⟩
      · rintro ⟨_, flat, rfl, hrun, rfl⟩
        exact ⟨flat, t, hrun, rfl, rfl⟩

/-- The flattening of a source with `levels + 1` levels left goes on with `levels` in files. -/
def inlineBelow (lookup : Lookup) (limit : Int) (levels : Nat) (path : Text) : Run Text :=
  inlineWith lookup (fun content => flattenAt lookup limit levels content (some path)) path

theorem flattenAt_succ (limit : Int) (levels : Nat) (source : Text) (importer : Option Text) :
    flattenAt lookup limit (levels + 1) source importer =
      inlinePieces (inlineBelow lookup limit levels) importer
        (Text.pieces Import.directive source) := rfl

theorem inlinePieces_cons_ok {inlinePath : Text → Run Text} {piece : Piece Import.Directive}
    {text : Text} {s t : Session} :
    runOn (inlinePieces inlinePath importer (piece :: pieces)) s = ⟨.ok text, t⟩ ↔
      ∃ first u rest, runOn (inlinePiece inlinePath importer piece) s = ⟨.ok first, u⟩ ∧
        runOn (inlinePieces inlinePath importer pieces) u = ⟨.ok rest, t⟩ ∧
        text = first ++ rest := by
  simp only [inlinePieces, runOn_bind_ok, runOn_pure, Outcome.mk.injEq, Except.ok.injEq]
  constructor
  · rintro ⟨first, u, hfirst, rest, v, hrest, rfl, rfl⟩
    exact ⟨first, u, rest, hfirst, hrest, rfl⟩
  · rintro ⟨first, u, rest, hfirst, hrest, rfl⟩
    exact ⟨first, u, hfirst, rest, t, hrest, rfl, rfl⟩

/-- A flattening that ends well has followed an expansion that is not too deep. -/
theorem expands_of_flattenAt {limit : Int} {levels : Nat} {source : Text} {s t : Session}
    {text : Text} (run : runOn (flattenAt lookup limit levels source importer) s = ⟨.ok text, t⟩) :
    ∃ e, Expands lookup importer s.seen (Text.pieces Import.directive source) e t.seen ∧
      text = e.render ∧ e.depth < levels ∧ t.features = s.features := by
  induction levels generalizing source importer s t text with
  | zero => simp [flattenAt] at run
  | succ levels fileIh =>
    rw [flattenAt_succ] at run
    generalize Text.pieces Import.directive source = pieces at run ⊢
    induction pieces generalizing s text with
    | nil =>
      simp only [inlinePieces, runOn_pure, Outcome.mk.injEq, Except.ok.injEq] at run
      obtain ⟨rfl, rfl⟩ := run
      exact ⟨.done, .done, rfl, Nat.succ_pos _, rfl⟩
    | cons piece pieces ih =>
      obtain ⟨first, u, rest, hfirst, hrest, rfl⟩ := inlinePieces_cons_ok.mp run
      obtain ⟨e, he, rfl, shallow, same⟩ := ih hrest
      cases piece with
      | char c =>
        simp only [inlinePiece, runOn_pure, Outcome.mk.injEq, Except.ok.injEq] at hfirst
        obtain ⟨rfl, rfl⟩ := hfirst
        exact ⟨.char c e, .char he, rfl, shallow, same⟩
      | hit d covered =>
        rcases inlineWith_ok.mp hfirst with ⟨known, rfl, rfl⟩ | ⟨new, absent, rfl, rfl⟩ |
          ⟨new, content, flat, found, hinner, rfl⟩
        · exact ⟨_, .duplicate known he, rfl, shallow, same⟩
        · exact ⟨_, .missing new absent he, rfl, shallow, same⟩
        · obtain ⟨inner, hi, rfl, deep, same'⟩ := fileIh hinner
          refine ⟨_, .file new found hi he, rfl, ?_, same.trans same'⟩
          simp only [Expansion.depth]
          omega

/-- A source with an expansion that is not too deep is flattened, and to that expansion. -/
theorem flattenAt_of_expands (limit : Int) {levels : Nat} {source : Text} {s : Session}
    (h : Expands lookup importer s.seen (Text.pieces Import.directive source) e met)
    (shallow : e.depth < levels) :
    ∃ t, runOn (flattenAt lookup limit levels source importer) s = ⟨.ok e.render, t⟩ ∧
      t.seen = met := by
  induction levels generalizing source importer s e met with
  | zero => omega
  | succ levels fileIh =>
    rw [flattenAt_succ]
    generalize Text.pieces Import.directive source = pieces at h ⊢
    revert shallow
    induction pieces generalizing s e with
    | nil =>
      intro _
      cases h
      exact ⟨s, rfl, rfl⟩
    | cons piece pieces ih =>
      intro shallow
      cases h with
      | char rest =>
        obtain ⟨t, hrest, hmet⟩ := ih rest shallow
        exact ⟨t, inlinePieces_cons_ok.mpr ⟨_, s, _, rfl, hrest, rfl⟩, hmet⟩
      | @duplicate _ _ d _ _ _ _ known rest =>
        obtain ⟨t, hrest, hmet⟩ := ih (s := s.afterDuplicate _) rest shallow
        have hfirst : runOn (inlineBelow lookup limit levels (Import.resolve d.path importer)) s =
            _ := inlineWith_ok.mpr (.inl ⟨known, rfl, rfl⟩)
        exact ⟨t, inlinePieces_cons_ok.mpr ⟨_, _, _, hfirst, hrest, rfl⟩, hmet⟩
      | @missing _ _ d _ _ _ _ new absent rest =>
        obtain ⟨t, hrest, hmet⟩ := ih (s := s.afterMissing _) rest shallow
        have hfirst : runOn (inlineBelow lookup limit levels (Import.resolve d.path importer)) s =
            _ := inlineWith_ok.mpr (.inr (.inl ⟨new, absent, rfl, rfl⟩))
        exact ⟨t, inlinePieces_cons_ok.mpr ⟨_, _, _, hfirst, hrest, rfl⟩, hmet⟩
      | @file _ _ d _ _ content _ _ _ _ new found inner rest =>
        simp only [Expansion.depth] at shallow
        obtain ⟨u, hinner, rfl⟩ := fileIh (s := s.afterAsking _) inner (by omega)
        obtain ⟨t, hrest, hmet⟩ := ih rest (by omega)
        have hfirst : runOn (inlineBelow lookup limit levels (Import.resolve d.path importer)) s =
            _ := inlineWith_ok.mpr (.inr (.inr ⟨new, content, _, found, hinner, rfl⟩))
        refine ⟨t, inlinePieces_cons_ok.mpr ⟨_, _, _, hfirst, hrest, ?_⟩, hmet⟩
        simp [Expansion.render]

/-! ## Existence -/

/-- The number of known paths that were not met. -/
def unmet (known seen : List Text) : Nat := (known.filter fun path => path ∉ seen).length

theorem unmet_anti {known seen later : List Text} (h : seen ⊆ later) :
    unmet known later ≤ unmet known seen := by
  refine (List.monotone_filter_right known ?_).length_le
  intro path new
  simp only [decide_eq_true_eq] at new ⊢
  exact fun old => new (h old)

theorem unmet_lt {known seen : List Text} {path : Text} (h : path ∈ known) (new : path ∉ seen) :
    unmet known (seen ++ [path]) < unmet known seen := by
  have split : (known.filter fun p => p ∉ seen ++ [path]) =
      (known.filter fun p => p ∉ seen).filter fun p => p ≠ path := by
    rw [List.filter_filter]
    congr 1
    funext p
    simp [not_or, and_comm]
  rw [unmet, split, unmet, List.length_filter_lt_length_iff_exists]
  exact ⟨path, by simp [h, new], by simp⟩

/-- If all files are among the known paths, every source has an expansion, which nests no deeper
than there are known paths that were not met. -/
theorem exists_expands (lookup : Lookup) {known : List Text}
    (hknown : ∀ path, (lookup path).isSome → path ∈ known) (importer : Option Text)
    (seen : List Text) (pieces : List (Piece Import.Directive)) :
    ∃ e met, Expands lookup importer seen pieces e met ∧ e.depth ≤ unmet known seen := by
  -- Inside a file there is one path less to be met, after it there are not more.
  suffices bounded : ∀ n importer seen pieces, unmet known seen ≤ n →
      ∃ e met, Expands lookup importer seen pieces e met ∧ e.depth ≤ n from
    bounded _ importer seen pieces (Nat.le_refl _)
  intro n
  induction n using Nat.strongRecOn with
  | ind n fileIh =>
    intro importer seen pieces
    induction pieces generalizing seen with
    | nil =>
      intro _
      exact ⟨.done, seen, .done, Nat.zero_le _⟩
    | cons piece pieces ih =>
      intro bound
      cases piece with
      | char c =>
        obtain ⟨e, met, he, shallow⟩ := ih seen bound
        exact ⟨.char c e, met, .char he, shallow⟩
      | hit d covered =>
        by_cases known' : Import.resolve d.path importer ∈ seen
        · obtain ⟨e, met, he, shallow⟩ := ih seen bound
          exact ⟨_, met, .duplicate known' he, shallow⟩
        · cases found : lookup (Import.resolve d.path importer) with
          | none =>
            obtain ⟨e, met, he, shallow⟩ := ih (seen ++ [Import.resolve d.path importer])
              (Nat.le_trans (unmet_anti (List.subset_append_left _ _)) bound)
            exact ⟨_, met, .missing known' found he, shallow⟩
          | some content =>
            have less : unmet known (seen ++ [Import.resolve d.path importer]) < n :=
              Nat.lt_of_lt_of_le (unmet_lt (hknown _ (by simp [found])) known') bound
            obtain ⟨inner, between, hi, deep⟩ := fileIh _ less
              (some (Import.resolve d.path importer)) _ (Text.pieces Import.directive content)
              (Nat.le_refl _)
            have later : seen ⊆ between := by
              rw [hi.met_eq, List.append_assoc]
              exact List.subset_append_left _ _
            obtain ⟨e, met, he, shallow⟩ := ih between (Nat.le_trans (unmet_anti later) bound)
            refine ⟨_, met, .file known' found hi he, ?_⟩
            simp only [Expansion.depth]
            omega

/-! ## Whole sources -/

/-- The text of the pieces of a flattened source with the first pragma of each feature that is
not yet turned on. -/
def firstPragmas : List Preamble.Feature → List (Piece Preamble.Feature) → Text
  | _, [] => []
  | on, .char c :: pieces => c :: firstPragmas on pieces
  | on, .hit feature covered :: pieces =>
    if feature ∈ on then firstPragmas on pieces
    else covered ++ firstPragmas (on ++ [feature]) pieces

/-- What is done to a flattened source in the end. -/
def tidy (on : List Preamble.Feature) (flat : Text) : Text :=
  collapseBlankLines (firstPragmas on (Text.pieces Preamble.featurePragma flat))

theorem runOn_keepFirstPragmas (pieces : List (Piece Preamble.Feature)) (s : Session) :
    ∃ t, runOn (keepFirstPragmas pieces) s = ⟨.ok (firstPragmas s.features pieces), t⟩ ∧
      t.seen = s.seen := by
  induction pieces generalizing s with
  | nil => exact ⟨s, rfl, rfl⟩
  | cons piece pieces ih =>
    simp only [keepFirstPragmas, runOn_bind]
    cases piece with
    | char c =>
      obtain ⟨t, run, same⟩ := ih s
      refine ⟨t, ?_, same⟩
      simp [keepFirstPragma, run, firstPragmas]
    | hit feature covered =>
      rw [runOn_keepFirstPragma]
      by_cases on : feature ∈ s.features
      · obtain ⟨t, run, same⟩ := ih (s.afterRepeated feature)
        refine ⟨t, ?_, same⟩
        simp only [if_pos on, run, runOn_pure, firstPragmas, List.nil_append]
        rfl
      · obtain ⟨t, run, same⟩ := ih (s.afterTurnedOn feature)
        refine ⟨t, ?_, same⟩
        simp only [if_neg on, run, runOn_pure, firstPragmas]
        rfl

/-- A whole source that is flattened has followed an expansion that is not too deep. -/
theorem expands_of_flattenSource {limit : Int} {source text : Text} {s t : Session}
    (run : runOn (flattenSource lookup limit source) s = ⟨.ok text, t⟩) :
    ∃ e, Expands lookup none s.seen (Text.pieces Import.directive source) e t.seen ∧
      text = tidy s.features e.render ∧ e.depth < levelsFrom limit 0 := by
  simp only [flattenSource, runOn_bind_ok, runOn_pure, Outcome.mk.injEq, Except.ok.injEq] at run
  obtain ⟨flat, u, hflat, kept, v, hkept, rfl, rfl⟩ := run
  obtain ⟨e, he, rfl, shallow, features⟩ := expands_of_flattenAt hflat
  obtain ⟨w, hrun, seen⟩ := runOn_keepFirstPragmas (Text.pieces Preamble.featurePragma e.render) u
  rw [hrun] at hkept
  cases hkept
  rw [features]
  exact ⟨e, seen ▸ he, rfl, shallow⟩

/-- In a fresh session the calls are the paths that the expansion asks for, and the unresolved
paths are those among them that have no file. -/
theorem asked_of_flattenSource {limit : Int} {source text : Text} {t : Session}
    (run : runOn (flattenSource lookup limit source) .empty = ⟨.ok text, t⟩) :
    ∃ e, Expands lookup none [] (Text.pieces Import.directive source) e t.seen ∧
      text = tidy [] e.render ∧ t.calls = e.asked ∧
      t.unresolved = e.asked.filter fun path => (lookup path).isNone := by
  obtain ⟨e, he, rendered, _⟩ := expands_of_flattenSource run
  have grows : Growing lookup (flattenSource lookup limit source) := grows_flattenSource limit source
  obtain ⟨asked, grown⟩ := grows .empty
  rw [run] at grown
  have same : asked = e.asked := grown.seen.symm.trans he.met_eq
  exact ⟨e, he, rendered, same ▸ grown.calls, same ▸ grown.unresolved⟩

/-- A whole source with an expansion that is not too deep is flattened, and to that
expansion. -/
theorem flattenSource_of_expands (limit : Int) {source : Text} {s : Session}
    (h : Expands lookup none s.seen (Text.pieces Import.directive source) e met)
    (shallow : e.depth < levelsFrom limit 0) :
    ∃ t, runOn (flattenSource lookup limit source) s = ⟨.ok (tidy s.features e.render), t⟩ := by
  obtain ⟨u, hflat, _⟩ := flattenAt_of_expands limit h shallow
  obtain ⟨e', he', same, _, features⟩ := expands_of_flattenAt hflat
  obtain ⟨v, hkept, _⟩ := runOn_keepFirstPragmas (Text.pieces Preamble.featurePragma e.render) u
  refine ⟨v, ?_⟩
  simp only [flattenSource, runOn_bind_ok, runOn_pure, Outcome.mk.injEq, Except.ok.injEq]
  exact ⟨e.render, u, hflat, _, v, hkept, by rw [features, tidy], rfl⟩

end Flatten

end TokenForge

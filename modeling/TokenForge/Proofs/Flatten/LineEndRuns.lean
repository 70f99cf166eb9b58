import TokenForge.Proofs.Flatten.Lasting
import TokenForge.Proofs.Path

/-!
# Sources with different line ends

Two sources that are equal without carriage returns have expansions that are equal without them
(`Expands.withoutReturns`), so a flattening of the one asks for the same paths in the same order as
a flattening of the other, and fails if the other fails (`alike_flattenAt`).  The texts are equal
without carriage returns too, unless a bare version pragma is dropped from an inlined file
(`Expansion.render_withoutReturns`).
-/

namespace TokenForge

open Text
open Import (Closed closed_append closed_concat closed_nil mayStart)

/-! ## Texts -/

theorem collapseBlankLines_withoutReturns {s : Text} (proper : Proper s) :
    collapseBlankLines (withoutReturns s) = withoutReturns (collapseBlankLines s) := by
  have scanned : pieces BlankLines.run (withoutReturns s) =
      (pieces BlankLines.run s).flatMap (Piece.withoutReturns fun _ => .lf) := by
    refine piecesFrom_withoutReturns BlankLines.run_anchored _ none s proper ?_ none fun _ => rfl
    rintro read left rfl _ early _
    exact BlankLines.run_withoutReturns (proper.of_suffix (List.suffix_append _ _)) _ _
  refine replace_withoutReturns scanned ?_
  rintro (_ | _) <;> rfl

namespace Import

theorem directive_at_lineFeed (before : Option Char) (s : Text) :
    directive before ('\n' :: s) = none := by
  rw [directive]
  split <;> rfl

/-- A directive with its path and the text that it covers without carriage returns. -/
theorem pieces_directive_withoutReturns {source : Text} (proper : Proper source) :
    pieces directive (withoutReturns source) =
      (pieces directive source).flatMap
        (Piece.withoutReturns fun d => ⟨withoutReturns d.path⟩) := by
  refine pieces_withoutReturns directive_anchored directive_at_lineFeed _ proper ?_
  rintro read left rfl
  exact directive_withoutReturns (proper.of_suffix (List.suffix_append _ _)) _

end Import

namespace Preamble

variable {s : Text}

theorem license_at_lineFeed (before : Option Char) (s : Text) :
    license before ('\n' :: s) = none := by
  rw [license]
  split <;> rfl

theorem versionPragma_at_lineFeed (before : Option Char) (s : Text) :
    versionPragma before ('\n' :: s) = none := by
  rw [versionPragma]
  split <;> rfl

theorem featurePragma_at_lineFeed (before : Option Char) (s : Text) :
    featurePragma before ('\n' :: s) = none := by
  rw [featurePragma]
  split <;> rfl

theorem removeLicense_withoutReturns (proper : Proper s) :
    remove license (withoutReturns s) = withoutReturns (remove license s) := by
  have scanned := pieces_withoutReturns license_anchored license_at_lineFeed id proper (by
    rintro read left rfl
    exact license_withoutReturns (proper.of_suffix (List.suffix_append _ _)) _)
  exact replace_withoutReturns scanned fun _ => rfl

/-- No line of a text starts with a bare version pragma. -/
def NoBareVersion (s : Text) : Prop :=
  ∀ read left, s = read ++ left → atLineStart (charBefore none read) = true → ¬ BareVersion left

/-- Where no part breaks off, no line starts with a bare version pragma. -/
theorem Unbroken.noBareVersion (h : Unbroken s) : NoBareVersion s := by
  rintro read left rfl start bare
  have closed : Closed read := by
    by_cases nothing : read = []
    · exact nothing ▸ closed_nil
    · rw [charBefore_eq_getLast? none nothing] at start
      exact Import.mayStart_of_atLineStart start
  obtain ⟨part, member, breaks⟩ := bare.exists_breaksOff
  refine h part ?_ breaks
  rw [parts_append closed]
  exact List.mem_append_right _ member

theorem removeVersion_withoutReturns (proper : Proper s) (more : NoBareVersion s) :
    remove versionPragma (withoutReturns s) = withoutReturns (remove versionPragma s) := by
  have same : ∀ read left, s = read ++ left →
      versionPragma (charBefore none read) (withoutReturns left) =
        (versionPragma (charBefore none read) left).map fun hit => (hit.1, withoutReturns hit.2) := by
    rintro read left rfl
    by_cases start : atLineStart (charBefore none read) = true
    · exact versionPragma_withoutReturns (proper.of_suffix (List.suffix_append _ _))
        (more read left rfl start) _
    · rw [versionPragma, versionPragma, if_neg start, if_neg start]
      rfl
  have scanned :=
    pieces_withoutReturns versionPragma_anchored versionPragma_at_lineFeed id proper same
  exact replace_withoutReturns scanned fun _ => rfl

/-- An inlined file loses the same preamble lines without carriage returns, if none of its version
pragmas is bare. -/
theorem dropPreamble_withoutReturns (proper : Proper s) (more : NoBareVersion (remove license s)) :
    dropPreamble (withoutReturns s) = withoutReturns (dropPreamble s) := by
  rw [dropPreamble, dropPreamble, removeLicense_withoutReturns proper,
    removeVersion_withoutReturns (Flatten.lasting_proper.removeLicense proper) more]

theorem pieces_featurePragma_withoutReturns (proper : Proper s) :
    pieces featurePragma (withoutReturns s) =
      (pieces featurePragma s).flatMap (Piece.withoutReturns id) := by
  refine pieces_withoutReturns featurePragma_anchored featurePragma_at_lineFeed id proper ?_
  rintro read left rfl
  exact featurePragma_withoutReturns (proper.of_suffix (List.suffix_append _ _)) _

end Preamble

namespace Flatten

open Preamble

/-! ## Sources and files -/

/-- A text whose carriage returns stand before line feeds and whose directives name paths on one
line. -/
structure Portable (source : Text) : Prop where
  proper : Proper source
  single : ∀ d ∈ hits Import.directive source, '\n' ∉ d.path

instance (source : Text) : Decidable (Portable source) :=
  decidable_of_iff (_ ∧ _) ⟨fun h => ⟨h.1, h.2⟩, fun h => ⟨h.proper, h.single⟩⟩

theorem Portable.returns {source : Text} (h : Portable source) :
    ∀ d ∈ hits Import.directive source, '\r' ∉ d.path := by
  intro d member
  obtain ⟨before, left, rest, suffix, found⟩ := exists_of_mem_found Import.directive_anchored member
  obtain ⟨quoted, a, within, taken⟩ := Import.exists_takePath?_of_directive found
  exact Import.return_not_mem_of_takePath? (h.proper.of_suffix (within.trans suffix)) taken
    (h.single d member)

variable {lookup lookup' : Lookup} {importer : Option Text} {seen met : List Text}
  {pieces : List (Piece Import.Directive)} {e : Expansion}

/-! ## Expansions -/

/-- An expansion without carriage returns. -/
def Expansion.withoutReturns : Expansion → Expansion
  | done => done
  | char c rest => if c = '\r' then rest.withoutReturns else char c rest.withoutReturns
  | duplicate path rest => duplicate path rest.withoutReturns
  | missing path rest => missing path rest.withoutReturns
  | file path inner rest => file path inner.withoutReturns rest.withoutReturns

/-- The paths that are asked for have no carriage return, if the paths in directives have none. -/
theorem Expands.returns (h : Expands lookup importer seen pieces e met)
    (files : ∀ path content, lookup path = some content → Portable content)
    (own : ∀ d ∈ found pieces, '\r' ∉ d.path) (within : ∀ file ∈ importer, '\r' ∉ file) :
    ∀ path ∈ e.asked, '\r' ∉ path := by
  induction h with
  | done => simp [Expansion.asked]
  | char _ ih => exact ih own within
  | duplicate _ _ ih => exact ih (fun d member => own d (.tail _ member)) within
  | missing _ _ _ ih =>
    rw [Expansion.asked, List.forall_mem_cons]
    exact ⟨Import.resolve_not_mem (by decide) (own _ (.head _)) within,
      ih (fun d member => own d (.tail _ member)) within⟩
  | file _ found _ _ innerIh restIh =>
    rw [Expansion.asked, List.forall_mem_cons, List.forall_mem_append]
    have named := Import.resolve_not_mem (by decide) (own _ (.head _)) within
    refine ⟨named, innerIh (files _ _ found).returns ?_,
      restIh (fun d member => own d (.tail _ member)) within⟩
    rintro _ ⟨⟩
    exact named

/-- The expansion of a source without carriage returns, with files without theirs. -/
theorem Expands.withoutReturns (h : Expands lookup importer seen pieces e met)
    (files : ∀ path content, lookup path = some content → Portable content)
    (same : ∀ path, lookup' path = (lookup path).map Text.withoutReturns)
    (own : ∀ d ∈ found pieces, '\r' ∉ d.path) :
    Expands lookup' importer seen
      (pieces.flatMap (Piece.withoutReturns fun d => ⟨Text.withoutReturns d.path⟩))
      e.withoutReturns met := by
  induction h with
  | done => exact .done
  | @char _ _ c _ _ _ _ ih =>
    rw [List.flatMap_cons, Piece.withoutReturns, Expansion.withoutReturns]
    by_cases return_ : c = '\r'
    · rw [if_pos return_, if_pos return_]
      exact ih own
    · rw [if_neg return_, if_neg return_]
      exact .char (ih own)
  | @duplicate _ _ d _ _ _ _ known _ ih =>
    have plain := withoutReturns_of_not_mem (own d (.head _))
    rw [← plain] at known ⊢
    exact .duplicate known (ih fun d member => own d (.tail _ member))
  | @missing _ _ d _ _ _ _ new absent _ ih =>
    have plain := withoutReturns_of_not_mem (own d (.head _))
    rw [← plain] at new absent ih ⊢
    refine .missing new ?_ (ih fun d member => own d (.tail _ member))
    rw [same, absent]
    rfl
  | @file _ _ d _ _ content _ _ _ _ new found _ _ innerIh restIh =>
    have plain := withoutReturns_of_not_mem (own d (.head _))
    rw [← plain] at new found innerIh ⊢
    have inner := files _ content found
    have inner_pieces := innerIh inner.returns
    rw [← Import.pieces_directive_withoutReturns inner.proper] at inner_pieces
    refine .file new ?_ inner_pieces (restIh fun d member => own d (.tail _ member))
    rw [same, found]
    rfl

/-- The expansion without carriage returns is the text without carriage returns. -/
theorem Expansion.render_withoutReturns (named : ∀ path ∈ e.asked, '\r' ∉ path)
    (inlined : ∀ inner ∈ e.inlined, Proper inner ∧ NoBareVersion (remove license inner)) :
    e.withoutReturns.render = Text.withoutReturns e.render := by
  induction e with
  | done => rfl
  | char c rest ih =>
    rw [Expansion.withoutReturns, Expansion.render]
    by_cases return_ : c = '\r'
    · subst return_
      exact ih named inlined
    · rw [if_neg return_, withoutReturns_cons return_, ← ih named inlined]
      rfl
  | duplicate path rest ih => exact ih named inlined
  | missing path rest ih =>
    rw [Expansion.asked, List.forall_mem_cons] at named
    have comment := withoutReturns_of_not_mem (not_mem_missingComment named.1)
    rw [Expansion.withoutReturns, Expansion.render, Expansion.render, withoutReturns_append,
      comment, ih named.2 inlined]
  | file path inner rest innerIh restIh =>
    rw [Expansion.asked, List.forall_mem_cons, List.forall_mem_append] at named
    rw [Expansion.inlined, List.forall_mem_cons, List.forall_mem_append] at inlined
    obtain ⟨⟨proper, more⟩, deeper, later⟩ := inlined
    have file := withoutReturns_append (dropPreamble inner.render) ['\n']
    rw [Expansion.withoutReturns, Expansion.render, Expansion.render, innerIh named.2.1 deeper,
      restIh named.2.2 later, dropPreamble_withoutReturns proper more, withoutReturns_append]
    exact congrArg (· ++ Text.withoutReturns rest.render) file.symm

/-! ## Runs -/

/-- Two runs do the same to every session and fault alike, whatever texts they answer. -/
def Alike (run run' : Run Text) : Prop :=
  ∀ s, (runOn run' s).state = (runOn run s).state ∧
    (runOn run' s).answer.map (fun _ => ()) = (runOn run s).answer.map (fun _ => ())

namespace Alike

variable {first first' : Run Text} {next next' : Text → Run Text}

theorem refl (run : Run Text) : Alike run run := fun _ => ⟨rfl, rfl⟩

theorem pure (text text' : Text) : Alike (pure text) (pure text') := fun _ => ⟨rfl, rfl⟩

theorem bind (hfirst : Alike first first') (hnext : ∀ text text', Alike (next text) (next' text')) :
    Alike (first >>= next) (first' >>= next') := by
  intro s
  rw [runOn_bind, runOn_bind]
  obtain ⟨sameState, sameFault⟩ := hfirst s
  generalize runOn first s = ended at sameState sameFault ⊢
  generalize runOn first' s = ended' at sameState sameFault ⊢
  obtain ⟨answer, t⟩ := ended
  obtain ⟨answer', t'⟩ := ended'
  obtain rfl : t' = t := sameState
  rcases answer with fault | text <;> rcases answer' with fault' | text'
  · cases sameFault
    exact ⟨rfl, rfl⟩
  · cases sameFault
  · cases sameFault
  · exact hnext text text' t'

end Alike

theorem alike_inlinePieces {inlinePath inlinePath' : Text → Run Text}
    (same : ∀ d ∈ found pieces, Alike (inlinePath (Import.resolve d.path importer))
      (inlinePath' (Import.resolve (Text.withoutReturns d.path) importer))) :
    Alike (inlinePieces inlinePath importer pieces) (inlinePieces inlinePath' importer
      (pieces.flatMap (Piece.withoutReturns fun d => ⟨Text.withoutReturns d.path⟩))) := by
  induction pieces with
  | nil => exact .refl _
  | cons piece pieces ih =>
    cases piece with
    | char c =>
      have read : inlinePieces inlinePath importer (.char c :: pieces) =
          inlinePieces inlinePath importer pieces >>= fun rest => pure (c :: rest) := rfl
      rw [List.flatMap_cons, Piece.withoutReturns]
      split
      · rw [read, List.nil_append, ← bind_pure (inlinePieces inlinePath' _ _)]
        exact .bind (ih same) fun _ _ => .pure _ _
      · exact .bind (.refl _) fun _ _ => .bind (ih same) fun _ _ => .pure _ _
    | hit d covered =>
      refine .bind (same d (.head _)) fun _ _ => ?_
      exact .bind (ih fun d member => same d (.tail _ member)) fun _ _ => .pure _ _

theorem alike_inlineWith {flattenFile flattenFile' : Text → Run Text} {path : Text}
    (same : lookup' path = (lookup path).map Text.withoutReturns)
    (inlined : ∀ content, lookup path = some content →
      Alike (flattenFile content) (flattenFile' (Text.withoutReturns content))) :
    Alike (inlineWith lookup flattenFile path) (inlineWith lookup' flattenFile' path) := by
  intro s
  rw [runOn_inlineWith, runOn_inlineWith, same]
  by_cases known : path ∈ s.seen
  · rw [if_pos known, if_pos known]
    exact ⟨rfl, rfl⟩
  rw [if_neg known, if_neg known]
  cases found : lookup path with
  | none => exact ⟨rfl, rfl⟩
  | some content =>
    exact Alike.bind (inlined content found) (fun _ _ => .pure _ _) (s.afterAsking path)

/-- The directives of a source are replaced alike with its carriage returns and without, if the
files are the same without theirs. -/
theorem alike_flattenAt (files : ∀ path content, lookup path = some content → Portable content)
    (same : ∀ path, lookup' path = (lookup path).map Text.withoutReturns) (limit : Int)
    (levels : Nat) {source : Text} (portable : Portable source) :
    Alike (flattenAt lookup limit levels source importer)
      (flattenAt lookup' limit levels (Text.withoutReturns source) importer) := by
  induction levels generalizing source importer with
  | zero => exact .refl _
  | succ levels ih =>
    rw [flattenAt_succ, flattenAt_succ, Import.pieces_directive_withoutReturns portable.proper]
    refine alike_inlinePieces fun d member => ?_
    rw [withoutReturns_of_not_mem (portable.returns d member)]
    exact alike_inlineWith (same _) fun content found => ih (files _ content found)

theorem runOn_keepFirstPragmas_cons {piece : Piece Feature} {pieces : List (Piece Feature)}
    {first rest : Text} {s t u : Session} (here : runOn (keepFirstPragma piece) s = ⟨.ok first, t⟩)
    (later : runOn (keepFirstPragmas pieces) t = ⟨.ok rest, u⟩) :
    runOn (keepFirstPragmas (piece :: pieces)) s = ⟨.ok (first ++ rest), u⟩ := by
  rw [keepFirstPragmas, runOn_bind_ok]
  refine ⟨first, t, here, ?_⟩
  rw [runOn_bind_ok]
  exact ⟨rest, u, later, rfl⟩

/-- The same pragmas are kept in pieces without carriage returns. -/
theorem runOn_keepFirstPragmas_withoutReturns {pieces : List (Piece Feature)} {s t : Session}
    {kept : Text} (run : runOn (keepFirstPragmas pieces) s = ⟨.ok kept, t⟩) :
    runOn (keepFirstPragmas (pieces.flatMap (Piece.withoutReturns id))) s =
      ⟨.ok (Text.withoutReturns kept), t⟩ := by
  induction pieces generalizing s kept with
  | nil =>
    cases run
    rfl
  | cons piece pieces ih =>
    rw [keepFirstPragmas] at run
    simp only [runOn_bind_ok] at run
    obtain ⟨first, u, here, rest, v, later, same⟩ := run
    cases same
    rw [withoutReturns_append]
    cases piece with
    | char c =>
      cases here
      rw [List.flatMap_cons, Piece.withoutReturns]
      by_cases return_ : c = '\r'
      · subst return_
        exact ih later
      · rw [if_neg return_, withoutReturns_cons return_]
        exact runOn_keepFirstPragmas_cons rfl (ih later)
    | hit feature covered =>
      refine runOn_keepFirstPragmas_cons ?_ (ih later)
      rw [runOn_keepFirstPragma] at here
      rw [id, runOn_keepFirstPragma]
      split at here
      · next on =>
        cases here
        exact if_pos on
      · next off =>
        cases here
        exact if_neg off

/-! ## Whole sources -/

/-- Two outcomes with the same calls in the same order, the same paths met and unresolved, and the
same fault or none. -/
structure SameCourse (ended ended' : Outcome Fault Session Text) : Prop where
  calls : ended.state.calls = ended'.state.calls
  seen : ended.state.seen = ended'.state.seen
  unresolved : ended.state.unresolved = ended'.state.unresolved
  fault : ended.answer.map (fun _ => ()) = ended'.answer.map (fun _ => ())

namespace SameCourse

variable {first second third : Outcome Fault Session Text}

theorem symm (h : SameCourse first second) : SameCourse second first :=
  ⟨h.calls.symm, h.seen.symm, h.unresolved.symm, h.fault.symm⟩

theorem trans (h : SameCourse first second) (h' : SameCourse second third) :
    SameCourse first third :=
  ⟨h.calls.trans h'.calls, h.seen.trans h'.seen, h.unresolved.trans h'.unresolved,
    h.fault.trans h'.fault⟩

end SameCourse

theorem Alike.sameCourse {run run' : Run Text} (h : Alike run run') (s : Session) :
    SameCourse (runOn run s) (runOn run' s) := by
  obtain ⟨sameState, sameFault⟩ := h s
  exact ⟨by rw [sameState], by rw [sameState], by rw [sameState], sameFault.symm⟩

/-- Keeping pragmas asks for no path. -/
theorem sameCourse_flattenSource (lookup : Lookup) (limit : Int) (source : Text) (s : Session) :
    SameCourse (runOn (flatten lookup limit source 0 none) s)
      (runOn (flattenSource lookup limit source) s) := by
  rw [flattenSource, runOn_bind]
  rcases runOn (flatten lookup limit source 0 none) s with ⟨fault | flat, t⟩
  · exact ⟨rfl, rfl, rfl, rfl⟩
  obtain ⟨u, kept, seen⟩ := runOn_keepFirstPragmas (Text.pieces featurePragma flat) t
  have grows : Growing lookup (keepFirstPragmas (Text.pieces featurePragma flat)) :=
    grows_keepFirstPragmas _
  obtain ⟨asked, grown⟩ := grows t
  rw [kept] at grown
  have none_asked : asked = [] := by
    have same := grown.seen
    rw [seen] at same
    exact List.self_eq_append_right.mp same
  subst none_asked
  dsimp only
  rw [runOn_bind, kept]
  exact ⟨by simpa using grown.calls.symm, seen.symm, by simpa using grown.unresolved.symm, rfl⟩

/-- No version pragma that is dropped from an inlined file is bare. -/
def Versioned (lookup : Lookup) (seen : List Text) (source : Text) : Prop :=
  ∀ e met, Expands lookup none seen (Text.pieces Import.directive source) e met →
    ∀ inner ∈ e.inlined, NoBareVersion (remove license inner)

/-- Files without lines that break off behind `solidity` have no bare version pragma, whatever is
inlined into them. -/
theorem versioned_of_unbroken {source : Text} (portable : Portable source)
    (files : ∀ path content, lookup path = some content → Portable content ∧ Unbroken content)
    (seen : List Text) : Versioned lookup seen source := by
  intro e met expands inner member
  have named := expands.returns (fun path content found => (files path content found).1)
    portable.returns nofun
  obtain ⟨inlined, _⟩ := expands.lasting lasting_unbroken
    (fun path content found => ⟨(files path content found).1.proper, (files path content found).2⟩)
    named
  exact (lasting_unbroken.removeLicense (inlined inner member)).2.noBareVersion

/-- The directives of a versioned source are replaced by the same texts without carriage
returns. -/
theorem runOn_flatten_withoutReturns {source : Text} (portable : Portable source)
    (files : ∀ path content, lookup path = some content → Portable content)
    (same : ∀ path, lookup' path = (lookup path).map Text.withoutReturns) {limit : Int}
    {s t : Session} (versioned : Versioned lookup s.seen source) {flat : Text}
    (run : runOn (flatten lookup limit source 0 none) s = ⟨.ok flat, t⟩) :
    Proper flat ∧ runOn (flatten lookup' limit (Text.withoutReturns source) 0 none) s =
      ⟨.ok (Text.withoutReturns flat), t⟩ := by
  obtain ⟨e, expands, rfl, _⟩ := expands_of_flattenAt run
  have named := expands.returns files portable.returns nofun
  obtain ⟨proper, kept⟩ := expands.lasting lasting_proper
    (fun path content found => (files path content found).proper) named
  have whole : Proper e.render := by
    refine kept [] (seamed_pieces source) ?_
    rw [List.nil_append, expands.own_eq_remove]
    exact lasting_proper.removeDirectives portable.proper
  refine ⟨whole, ?_⟩
  have alike : Alike (flatten lookup limit source 0 none)
      (flatten lookup' limit (Text.withoutReturns source) 0 none) :=
    alike_flattenAt files same limit _ portable
  obtain ⟨sameState, sameFault⟩ := alike s
  rw [run] at sameState sameFault
  rcases run' : runOn (flatten lookup' limit (Text.withoutReturns source) 0 none) s with
    ⟨fault | flat, t'⟩ <;> rw [run'] at sameState sameFault
  · cases sameFault
  obtain rfl : t' = t := sameState
  obtain ⟨e', expands', rfl, _⟩ := expands_of_flattenAt run'
  have stripped := expands.withoutReturns files same portable.returns
  rw [← Import.pieces_directive_withoutReturns portable.proper] at stripped
  obtain ⟨rfl, _⟩ := expands'.unique stripped
  rw [Expansion.render_withoutReturns named fun inner member =>
    ⟨proper inner member, versioned e _ expands inner member⟩]

/-- A versioned source is flattened to the same text without carriage returns. -/
theorem runOn_flattenSource_withoutReturns {source : Text} (portable : Portable source)
    (files : ∀ path content, lookup path = some content → Portable content)
    (same : ∀ path, lookup' path = (lookup path).map Text.withoutReturns) (limit : Int)
    (s : Session) (versioned : Versioned lookup s.seen source) :
    runOn (flattenSource lookup' limit (Text.withoutReturns source)) s =
      ⟨(runOn (flattenSource lookup limit source) s).answer.map Text.withoutReturns,
        (runOn (flattenSource lookup limit source) s).state⟩ := by
  have alike : Alike (flatten lookup limit source 0 none)
      (flatten lookup' limit (Text.withoutReturns source) 0 none) :=
    alike_flattenAt files same limit _ portable
  obtain ⟨sameState, sameFault⟩ := alike s
  rw [flattenSource, flattenSource, runOn_bind, runOn_bind]
  cases run : runOn (flatten lookup limit source 0 none) s with
  | mk answer t =>
  rw [run] at sameState sameFault
  cases answer with
  | error fault =>
    rcases run' : runOn (flatten lookup' limit (Text.withoutReturns source) 0 none) s with
      ⟨fault' | flat, t'⟩ <;> rw [run'] at sameState sameFault
    · obtain rfl : t' = t := sameState
      cases sameFault
      rfl
    · cases sameFault
  | ok flat =>
    obtain ⟨proper, run'⟩ := runOn_flatten_withoutReturns portable files same versioned run
    obtain ⟨u, kept, _⟩ := runOn_keepFirstPragmas (Text.pieces featurePragma flat) t
    have kept' := runOn_keepFirstPragmas_withoutReturns kept
    rw [← pieces_featurePragma_withoutReturns proper] at kept'
    have proper' : Proper (firstPragmas t.features (Text.pieces featurePragma flat)) :=
      holds_of_trimmed proper_cut featurePragma_anchored Import.mayStart_of_atLineStart
        (fun _ h => h.of_suffix (List.suffix_append _ _)) proper (trimmed_firstPragmas _ _)
    rw [run']
    dsimp only
    rw [runOn_bind, runOn_bind, kept, kept']
    simp only [runOn_pure, Except.map, collapseBlankLines_withoutReturns proper']

/-- Line ends do not matter: let two sources have files under the same paths, all equal without
carriage returns, with carriage returns only before line feeds and paths on one line.  Then
flattening them asks for the same paths in the same order, leaves the same ones unresolved, and
nests too deep in both or in none.  If no version pragma that is dropped from a file is bare, the
sessions are equal as a whole and the texts are equal without carriage returns.

A bare version pragma, `solidity` and a line break and a semicolon, is one only with its carriage
return: there have to be two characters before the semicolon. -/
theorem flattenSource_lineEnds {source source' : Text} (portable : Portable source)
    (portable' : Portable source')
    (files : ∀ path content, lookup path = some content → Portable content)
    (files' : ∀ path content, lookup' path = some content → Portable content)
    (sameSource : Text.withoutReturns source = Text.withoutReturns source')
    (sameFiles : ∀ path,
      (lookup path).map Text.withoutReturns = (lookup' path).map Text.withoutReturns)
    (limit : Int) (s : Session) :
    let ended := runOn (flattenSource lookup limit source) s
    let ended' := runOn (flattenSource lookup' limit source') s
    SameCourse ended ended' ∧
      (Versioned lookup s.seen source → Versioned lookup' s.seen source' →
        ended.state = ended'.state ∧
        ended.answer.map Text.withoutReturns = ended'.answer.map Text.withoutReturns) := by
  intro ended ended'
  have alike : Alike (flatten lookup limit source 0 none)
      (flatten (fun path => (lookup path).map Text.withoutReturns) limit
        (Text.withoutReturns source) 0 none) :=
    alike_flattenAt files (fun _ => rfl) limit _ portable
  have alike' : Alike (flatten lookup' limit source' 0 none)
      (flatten (fun path => (lookup path).map Text.withoutReturns) limit
        (Text.withoutReturns source) 0 none) :=
    sameSource ▸ alike_flattenAt files' sameFiles limit _ portable'
  refine ⟨?_, fun versioned versioned' => ?_⟩
  · have course := (sameCourse_flattenSource lookup limit source s).symm.trans (alike.sameCourse s)
    have course' := (alike'.sameCourse s).symm.trans
      (sameCourse_flattenSource lookup' limit source' s)
    exact course.trans course'
  · have plain := runOn_flattenSource_withoutReturns portable files (fun _ => rfl) limit s versioned
    have plain' :=
      runOn_flattenSource_withoutReturns portable' files' sameFiles limit s versioned'
    rw [← sameSource, plain] at plain'
    obtain ⟨sameAnswer, sameState⟩ := Outcome.mk.inj plain'
    exact ⟨sameState, sameAnswer⟩

/-! ## A source and two files with mixed line ends -/

/-- A source all of whose lines end in a carriage return and a line feed. -/
def crlfSource : Text :=
  "import \"lib/A.sol\";\r\npragma abicoder v2;\r\ncontract C \x7b\x7d\r\n"

/-- Two such files, of which the first imports the second and one that is missing. -/
def crlfFiles : Assoc Text :=
  [("lib/A.sol", "pragma\r\n  solidity ^0.8.0;\r\n".toList ++
      "import \"./B.sol\";\r\nimport\r\n\"gone.sol\";\r\nlibrary A \x7b\x7d\r\n"),
    ("lib/B.sol", "pragma abicoder v1;\r\n\r\n\r\n\r\n\r\n\r\nlibrary B \x7b\x7d\r\n")]

/-- The same source without carriage returns. -/
def lfSource : Text := "import \"lib/A.sol\";\npragma abicoder v2;\ncontract C \x7b\x7d\n"

/-- The same files with some of their carriage returns. -/
def mixedFiles : Assoc Text :=
  [("lib/A.sol", "pragma\n  solidity ^0.8.0;\r\n".toList ++
      "import \"./B.sol\";\nimport\r\n\"gone.sol\";\nlibrary A \x7b\x7d\n"),
    ("lib/B.sol", "pragma abicoder v1;\r\n\n\r\n\n\r\n\nlibrary B \x7b\x7d\n")]

/-- The two sources are flattened to texts that differ in carriage returns only. -/
theorem flattenSource_lineEnds_mixedFiles :
    ∃ flat t, runOn (flattenSource (Assoc.get? crlfFiles) 20 crlfSource) .empty = ⟨.ok flat, t⟩ ∧
      t.seen = ["lib/A.sol".toList, "lib/B.sol".toList, "gone.sol".toList] ∧
      (runOn (flattenSource (Assoc.get? mixedFiles) 20 lfSource) .empty).state = t ∧
      (runOn (flattenSource (Assoc.get? mixedFiles) 20 lfSource) .empty).answer.map
        Text.withoutReturns = .ok (Text.withoutReturns flat) := by
  have ends : (runOn (flattenSource (Assoc.get? crlfFiles) 20 crlfSource) .empty).answer =
      .ok ("pragma abicoder v1;\r\n\r\n\r\nlibrary B \x7b\x7d\r\n\n".toList ++
        "// Import not found: gone.sol\nlibrary A \x7b\x7d\r\n\ncontract C \x7b\x7d\r\n") := by
    decide +kernel
  have met : (runOn (flattenSource (Assoc.get? crlfFiles) 20 crlfSource) .empty).state.seen =
      ["lib/A.sol".toList, "lib/B.sol".toList, "gone.sol".toList] := by
    decide +kernel
  have portable : Portable crlfSource ∧ Portable lfSource := by decide +kernel
  have files : ∀ file ∈ crlfFiles ++ mixedFiles, Portable file.2 ∧ Unbroken file.2 := by
    decide +kernel
  have crlf : ∀ path content, Assoc.get? crlfFiles path = some content →
      Portable content ∧ Unbroken content := fun _ _ found =>
    files _ (List.mem_append_left _ (Assoc.mem_of_get? found))
  have mixed : ∀ path content, Assoc.get? mixedFiles path = some content →
      Portable content ∧ Unbroken content := fun _ _ found =>
    files _ (List.mem_append_right _ (Assoc.mem_of_get? found))
  have stripped : (crlfFiles.map fun file => (file.1, Text.withoutReturns file.2)) =
      mixedFiles.map fun file => (file.1, Text.withoutReturns file.2) := by
    decide +kernel
  obtain ⟨_, alike⟩ := flattenSource_lineEnds portable.1 portable.2
    (fun path content found => (crlf path content found).1)
    (fun path content found => (mixed path content found).1) (by decide +kernel)
    (fun path => by rw [← Assoc.get?_map, ← Assoc.get?_map, stripped]) 20 .empty
  obtain ⟨sameState, sameAnswer⟩ :=
    alike (versioned_of_unbroken portable.1 crlf _) (versioned_of_unbroken portable.2 mixed _)
  rcases run : runOn (flattenSource (Assoc.get? crlfFiles) 20 crlfSource) .empty with ⟨answer, t⟩
  rw [run] at ends met sameState sameAnswer
  cases ends
  exact ⟨_, t, rfl, met, sameState.symm, sameAnswer.symm⟩

end Flatten

end TokenForge

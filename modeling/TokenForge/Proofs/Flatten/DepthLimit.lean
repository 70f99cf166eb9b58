import TokenForge.Proofs.Flatten.Reachable
import Mathlib.Data.List.Chain
import Mathlib.Data.List.Perm.Subperm

/-!
# The limit on depth

The depth of a source is the number of files that are being inlined around it.  The limit on it
ends every flattening, also one whose look-up knows endlessly many files.

A run that is too deep has a *chain* behind it: the files that were being inlined, each of
which imports the next one.  They are different files, because a file that is being inlined
was met (`chain_of_tooDeep`).  So a limit as large as the number of files is never reached.

A run that ends well does not depend on the limit: `Upholds` says that one run ends as another
does whenever that one ends well.
-/

namespace TokenForge

namespace Flatten

variable {α β : Type} {lookup : Lookup}

/-! ## The recursion -/

theorem levelsFrom_of_lt {limit depth : Int} (h : limit < depth) : levelsFrom limit depth = 0 := by
  unfold levelsFrom
  omega

theorem levelsFrom_of_le {limit depth : Int} (h : depth ≤ limit) :
    levelsFrom limit depth = levelsFrom limit (depth + 1) + 1 := by
  unfold levelsFrom
  omega

/-- A source beyond the limit is refused, and the files that another one imports are flattened one
level deeper. -/
theorem flatten_eq (lookup : Lookup) (limit : Int) (source : Text) (depth : Int)
    (importer : Option Text) :
    flatten lookup limit source depth importer =
      if limit < depth then throw (.tooDeep limit)
      else inlinePieces (fun path => inlinePath lookup limit path depth) importer
        (Text.pieces Import.directive source) := by
  rw [flatten]
  split
  next deep => rw [levelsFrom_of_lt deep, flattenAt]
  next shallow =>
    rw [levelsFrom_of_le (Int.not_lt.mp shallow), flattenAt_succ]
    rfl

/-! ## Larger limits -/

/-- A run ends as another one does, whenever that one ends well. -/
def Upholds (run run' : Run α) : Prop :=
  ∀ s a t, runOn run s = ⟨.ok a, t⟩ → runOn run' s = ⟨.ok a, t⟩

theorem Upholds.refl (run : Run α) : Upholds run run := fun _ _ _ ends => ends

theorem Upholds.bind {first first' : Run α} {next next' : α → Run β}
    (hfirst : Upholds first first') (hnext : ∀ a, Upholds (next a) (next' a)) :
    Upholds (first >>= next) (first' >>= next') := by
  intro s b u ends
  obtain ⟨a, t, ends_first, ends_next⟩ := runOn_bind_ok.mp ends
  exact runOn_bind_ok.mpr ⟨a, t, hfirst s a t ends_first, hnext a t b u ends_next⟩

theorem upholds_inlineWith {flattenFile flattenFile' : Text → Run Text}
    (h : ∀ content, Upholds (flattenFile content) (flattenFile' content)) (path : Text) :
    Upholds (inlineWith lookup flattenFile path) (inlineWith lookup flattenFile' path) := by
  intro s text t ends
  rw [inlineWith_ok] at ends ⊢
  rcases ends with known | absent | ⟨new, content, flat, found, inner, rfl⟩
  · exact .inl known
  · exact .inr (.inl absent)
  · exact .inr (.inr ⟨new, content, flat, found, h content _ _ _ inner, rfl⟩)

theorem upholds_inlinePieces {inlinePath inlinePath' : Text → Run Text}
    (h : ∀ path, Upholds (inlinePath path) (inlinePath' path)) (importer : Option Text)
    (pieces : List (Piece Import.Directive)) :
    Upholds (inlinePieces inlinePath importer pieces)
      (inlinePieces inlinePath' importer pieces) := by
  induction pieces with
  | nil => exact .refl _
  | cons piece pieces ih =>
    refine .bind ?_ fun first => .bind ih fun rest => .refl _
    cases piece with
    | char c => exact .refl _
    | hit directive covered => exact h _

theorem upholds_flattenAt (limit limit' : Int) {levels levels' : Nat} (more : levels ≤ levels')
    (source : Text) (importer : Option Text) :
    Upholds (flattenAt lookup limit levels source importer)
      (flattenAt lookup limit' levels' source importer) := by
  induction levels generalizing levels' source importer with
  | zero =>
    intro s text t ends
    simp [flattenAt] at ends
  | succ levels ih =>
    obtain ⟨levels', rfl⟩ := Nat.exists_eq_succ_of_ne_zero (Nat.ne_zero_of_lt more)
    rw [flattenAt_succ, flattenAt_succ]
    refine upholds_inlinePieces (fun path => ?_) importer _
    exact upholds_inlineWith (fun content => ih (Nat.le_of_succ_le_succ more) content _) path

theorem upholds_flattenSource {limit limit' : Int} (more : limit ≤ limit') (source : Text) :
    Upholds (flattenSource lookup limit source) (flattenSource lookup limit' source) := by
  have levels : levelsFrom limit 0 ≤ levelsFrom limit' 0 := by
    unfold levelsFrom
    omega
  exact .bind (upholds_flattenAt limit limit' levels source none) fun _ => .refl _

/-! ## Runs that are too deep -/

/-- Files that a run on a session has asked for, each imported by the one before it and the first
one by the source itself. -/
structure Nests (lookup : Lookup) (imported : List Text) (before after : Session)
    (chain : List Text) : Prop where
  nodup : chain.Nodup
  first : ∀ path ∈ chain.head?, path ∈ imported
  linked : chain.IsChain (Imports lookup)
  fresh : ∀ path ∈ chain, path ∉ before.seen
  met : ∀ path ∈ chain, path ∈ after.seen
  present : ∀ path ∈ chain, (lookup path).isSome

namespace Nests

variable {imported more chain : List Text} {s t u : Session} {path content : Text}

/-- A file whose own imports nest. -/
theorem cons (new : path ∉ s.seen) (found : lookup path = some content) (member : path ∈ imported)
    (inner : Nests lookup (Import.paths content (some path)) (s.afterAsking path) t chain)
    (later : (s.afterAsking path).seen ⊆ t.seen) : Nests lookup imported s t (path :: chain) := by
  have fresh : ∀ file ∈ chain, file ∉ s.seen ++ [path] := inner.fresh
  constructor
  case nodup =>
    refine List.nodup_cons.mpr ⟨fun again => ?_, inner.nodup⟩
    exact fresh path again (by simp)
  case first => simpa using member
  case linked =>
    refine List.isChain_cons.mpr ⟨fun file head => ?_, inner.linked⟩
    exact (imports_of_found found file).mpr (inner.first file head)
  case fresh =>
    refine List.forall_mem_cons.mpr ⟨new, fun file member => ?_⟩
    exact fun old => fresh file member (List.mem_append_left _ old)
  case met =>
    refine List.forall_mem_cons.mpr ⟨later ?_, inner.met⟩
    exact List.mem_append_right _ (by simp)
  case present => exact List.forall_mem_cons.mpr ⟨by simp [found], inner.present⟩

/-- What nests in a part of a run nests in the run. -/
theorem mono (h : Nests lookup imported t u chain) (earlier : s.seen ⊆ t.seen)
    (wider : imported ⊆ more) : Nests lookup more s u chain where
  nodup := h.nodup
  first := fun path head => wider (h.first path head)
  linked := h.linked
  fresh := fun path member old => h.fresh path member (earlier old)
  met := h.met
  present := h.present

end Nests

/-- What was met stays met. -/
theorem Growing.seen_subset {run : Run α} (h : Growing lookup run) {s t : Session}
    {answer : Except Fault α} (ends : runOn run s = ⟨answer, t⟩) : s.seen ⊆ t.seen := by
  obtain ⟨asked, grown⟩ := h s
  rw [ends] at grown
  rw [grown.seen]
  exact List.subset_append_left _ _

section TooDeep

variable {limit : Int} {fault : Fault}

/-- An inlined path is too deep only where its file is. -/
theorem inlineWith_error {flattenFile : Text → Run Text} {path : Text} {s t : Session}
    (ends : runOn (inlineWith lookup flattenFile path) s = ⟨.error fault, t⟩) :
    path ∉ s.seen ∧ ∃ content, lookup path = some content ∧
      runOn (flattenFile content) (s.afterAsking path) = ⟨.error fault, t⟩ := by
  rw [runOn_inlineWith] at ends
  split at ends
  next known => cases ends
  next new =>
    refine ⟨new, ?_⟩
    cases found : lookup path with
    | none =>
      rw [found] at ends
      cases ends
    | some content =>
      refine ⟨content, rfl, ?_⟩
      rw [found] at ends
      simp only [runOn_bind] at ends
      rcases inner : runOn (flattenFile content) (s.afterAsking path) with ⟨fault' | flat, u⟩
      · simpa [inner] using ends
      · simp [inner] at ends

/-- Pieces are too deep only where one of them is, after those before it were replaced. -/
theorem inlinePieces_cons_error {inlinePath : Text → Run Text} {importer : Option Text}
    {piece : Piece Import.Directive} {pieces : List (Piece Import.Directive)} {s t : Session}
    (ends : runOn (inlinePieces inlinePath importer (piece :: pieces)) s = ⟨.error fault, t⟩) :
    runOn (inlinePiece inlinePath importer piece) s = ⟨.error fault, t⟩ ∨
      ∃ u first, runOn (inlinePiece inlinePath importer piece) s = ⟨.ok first, u⟩ ∧
        runOn (inlinePieces inlinePath importer pieces) u = ⟨.error fault, t⟩ := by
  simp only [inlinePieces, runOn_bind] at ends
  rcases hfirst : runOn (inlinePiece inlinePath importer piece) s with ⟨fault' | first, u⟩
  · simp only [hfirst] at ends
    exact .inl ends
  · refine .inr ⟨u, first, rfl, ?_⟩
    simp only [hfirst] at ends
    rcases hrest : runOn (inlinePieces inlinePath importer pieces) u with ⟨fault' | rest, v⟩
    · simp only [hrest] at ends
      exact ends
    · simp [hrest] at ends

/-- Behind a run that is too deep there are as many nested files as there were levels. -/
theorem chain_of_tooDeep {levels : Nat} {source : Text} {importer : Option Text} {s t : Session}
    (ends : runOn (flattenAt lookup limit levels source importer) s = ⟨.error fault, t⟩) :
    fault = .tooDeep limit ∧ ∃ chain, chain.length = levels ∧
      Nests lookup (Import.paths source importer) s t chain := by
  induction levels generalizing source importer s t with
  | zero =>
    rw [flattenAt, runOn_throw] at ends
    cases ends
    exact ⟨rfl, [], rfl, by simp, by simp, .nil, by simp, by simp, by simp⟩
  | succ levels fileIh =>
    rw [flattenAt_succ] at ends
    change _ ∧ ∃ chain, _ ∧ Nests lookup (importedBy importer _) s t chain
    generalize Text.pieces Import.directive source = pieces at ends ⊢
    induction pieces generalizing s with
    | nil => cases ends
    | cons piece pieces ih =>
      rcases inlinePieces_cons_error ends with here | ⟨u, first, before, behind⟩
      · cases piece with
        | char c => cases here
        | hit d covered =>
          obtain ⟨new, content, found, inner⟩ := inlineWith_error here
          obtain ⟨deep, chain, length, nests⟩ := fileIh inner
          have later := (grows_flattenAt limit levels content _).seen_subset inner
          exact ⟨deep, _ :: chain, by rw [List.length_cons, length],
            nests.cons new found (.head _) later⟩
      · obtain ⟨deep, chain, length, nests⟩ := ih behind
        have earlier : s.seen ⊆ u.seen := by
          have grows : Growing lookup (inlinePiece (inlineBelow lookup limit levels) importer
              piece) := by
            cases piece with
            | char c => exact .pure _
            | hit d covered => exact grows_inlineWith (fun _ => grows_flattenAt limit levels _ _) _
          exact grows.seen_subset before
        refine ⟨deep, chain, length, nests.mono earlier ?_⟩
        cases piece with
        | char c => exact List.Subset.refl _
        | hit d covered => exact List.subset_cons_self _ _

/-- A whole source is refused only while its directives are replaced. -/
theorem flattenSource_error {source : Text} {s t : Session}
    (ends : runOn (flattenSource lookup limit source) s = ⟨.error fault, t⟩) :
    runOn (flatten lookup limit source 0 none) s = ⟨.error fault, t⟩ := by
  simp only [flattenSource, runOn_bind] at ends
  rcases first : runOn (flatten lookup limit source 0 none) s with ⟨fault' | flat, u⟩
  · simpa [first] using ends
  · obtain ⟨v, kept, _⟩ := runOn_keepFirstPragmas (Text.pieces Preamble.featurePragma flat) u
    simp [first, kept] at ends

/-- A whole source that is refused is too deep, and has a chain of files behind it that is one
longer than the limit. -/
theorem chain_of_flattenSource {source : Text} {s t : Session}
    (ends : runOn (flattenSource lookup limit source) s = ⟨.error fault, t⟩) :
    fault = .tooDeep limit ∧ ∃ chain, chain.length = levelsFrom limit 0 ∧
      Nests lookup (Import.paths source none) s t chain :=
  chain_of_tooDeep (flattenSource_error ends)

end TooDeep

/-! ## The limit of a whole flattening -/

/-- The depth of a source is checked before its directives are replaced, those of its files one
level deeper, and this recursion ends for every look-up: a flattening ends well or is too deep.
If it is too deep under a limit that is not negative, it has asked for a chain of different files,
one more than the limit, of which the first is imported by the source and each other one by the
file before it.  So it ends well if there are no more files than the limit.  A flattening that
ends well under a limit ends in the same way, and leaves the same session, under every larger
one. -/
theorem flattenSource_depthLimit (lookup : Lookup) (limit : Int) (source : Text) (s : Session) :
    (∀ depth importer, flatten lookup limit source depth importer =
      if limit < depth then throw (.tooDeep limit)
      else inlinePieces (fun path => inlineWith lookup
          (fun content => flatten lookup limit content (depth + 1) (some path)) path) importer
        (Text.pieces Import.directive source)) ∧
    ((∃ text t, runOn (flattenSource lookup limit source) s = ⟨.ok text, t⟩) ∨
      ∃ t, runOn (flattenSource lookup limit source) s = ⟨.error (.tooDeep limit), t⟩) ∧
    (∀ fault t, runOn (flattenSource lookup limit source) s = ⟨.error fault, t⟩ → 0 ≤ limit →
      ∃ chain asked : List Text, t.calls = s.calls ++ asked ∧ (∀ path ∈ chain, path ∈ asked) ∧
        (chain.length : Int) = limit + 1 ∧ chain.Nodup ∧
        (∀ path ∈ chain, (lookup path).isSome) ∧
        (∀ path ∈ chain.head?, path ∈ Import.paths source none) ∧
        chain.IsChain (Imports lookup)) ∧
    (∀ known : List Text, (∀ path, (lookup path).isSome → path ∈ known) → known.length ≤ limit →
      ∃ text t, runOn (flattenSource lookup limit source) s = ⟨.ok text, t⟩) ∧
    ∀ limit', limit ≤ limit' → ∀ text t,
      runOn (flattenSource lookup limit source) s = ⟨.ok text, t⟩ →
        runOn (flattenSource lookup limit' source) s = ⟨.ok text, t⟩ := by
  refine ⟨fun depth importer => flatten_eq lookup limit source depth importer, ?_, ?_, ?_, ?_⟩
  · rcases ends : runOn (flattenSource lookup limit source) s with ⟨fault | text, t⟩
    · obtain ⟨rfl, _⟩ := chain_of_flattenSource ends
      exact .inr ⟨t, rfl⟩
    · exact .inl ⟨text, t, rfl⟩
  · intro fault t ends enough
    obtain ⟨_, chain, length, nests⟩ := chain_of_flattenSource ends
    have grows : Growing lookup (flattenSource lookup limit source) :=
      grows_flattenSource limit source
    obtain ⟨asked, grown⟩ := grows s
    rw [ends] at grown
    refine ⟨chain, asked, grown.calls, ?_, ?_, nests.nodup, nests.present, nests.first,
      nests.linked⟩
    · intro path member
      have met := nests.met path member
      rw [grown.seen] at met
      exact (List.mem_append.mp met).resolve_left (nests.fresh path member)
    · rw [length, levelsFrom]
      omega
  · intro known hknown enough
    rcases ends : runOn (flattenSource lookup limit source) s with ⟨fault | text, t⟩
    · obtain ⟨_, chain, length, nests⟩ := chain_of_flattenSource ends
      have within : chain ⊆ known := fun path member => hknown path (nests.present path member)
      have bound := (List.subperm_of_subset nests.nodup within).length_le
      rw [length, levelsFrom] at bound
      omega
    · exact ⟨text, t, rfl⟩
  · intro limit' more text t ends
    exact upholds_flattenSource more source s text t ends

/-! ## Endlessly many files -/

/-- A look-up that knows a file for every path, which imports a file that no other one imports. -/
def endlessFiles : Lookup := fun path => some ("import \"x" ++ path ++ "\";\n")

/-- Flattening over these files under a limit of two asks for three files, each of which imports
the next one. -/
theorem flattenSource_depthLimit_endlessFiles :
    ∃ chain : List Text, chain.length = 3 ∧ chain.Nodup ∧
      (∀ path ∈ chain.head?, path ∈ Import.paths "import \"x\";" none) ∧
      chain.IsChain (Imports endlessFiles) := by
  have answer : (runOn (flattenSource endlessFiles 2 "import \"x\";") .empty).answer =
      .error (.tooDeep 2) := by
    decide +kernel
  generalize run : runOn (flattenSource endlessFiles 2 "import \"x\";") .empty = outcome at answer
  obtain ⟨answer', t⟩ := outcome
  obtain rfl : answer' = .error (.tooDeep 2) := answer
  obtain ⟨_, _, deep, _⟩ := flattenSource_depthLimit endlessFiles 2 "import \"x\";" .empty
  obtain ⟨chain, _, _, _, length, nodup, _, first, linked⟩ := deep _ t run (by decide)
  exact ⟨chain, by omega, nodup, first, linked⟩

end Flatten

end TokenForge

import TokenForge.Assoc
import TokenForge.Proofs.Flatten.Expansion
import TokenForge.Proofs.Path
import Mathlib.Data.List.Count
import Mathlib.Logic.Relation

/-!
# Which files are inlined

A file *imports* the paths of its directives, and *reaches* what it imports, what that
imports, and so on.  A flattening asks for the paths that its source reaches and for no
other (`Expands.mem_asked_iff`): every path asked for is reached, and the paths that
were met are closed under imports.

The outermost source has no path of its own, so a session does not know it as met.  A
file of a map that is flattened as the outermost source is therefore inlined once more
where a file that it reaches imports it.  `flattenSource_copies` counts how often the
text of each file stands in the result.
-/

namespace TokenForge

namespace Flatten

variable {lookup : Lookup} {importer : Option Text} {seen met : List Text}
  {pieces : List (Piece Import.Directive)} {e : Expansion}

/-! ## Imports -/

/-- The file of a path holds a directive for another. -/
def Imports (lookup : Lookup) (path target : Text) : Prop :=
  ∃ content, lookup path = some content ∧ target ∈ Import.paths content (some path)

/-- A path leads to another through imports. -/
abbrev Reaches (lookup : Lookup) : Text → Text → Prop := Relation.ReflTransGen (Imports lookup)

/-- The paths of the directives among pieces. -/
def importedBy (importer : Option Text) (pieces : List (Piece Import.Directive)) : List Text :=
  (pieces.filterMap Piece.found?).map fun d => Import.resolve d.path importer

@[simp]
theorem importedBy_char (c : Char) :
    importedBy importer (.char c :: pieces) = importedBy importer pieces := rfl

@[simp]
theorem importedBy_hit (d : Import.Directive) (covered : Text) :
    importedBy importer (.hit d covered :: pieces) =
      Import.resolve d.path importer :: importedBy importer pieces := rfl

theorem imports_of_found {path content : Text} (found : lookup path = some content)
    (target : Text) :
    Imports lookup path target ↔
      target ∈ importedBy (some path) (Text.pieces Import.directive content) := by
  constructor
  · rintro ⟨content', found', member⟩
    rw [found] at found'
    cases found'
    exact member
  · intro member
    exact ⟨content, found, member⟩

/-- Paths that are closed under imports hold all that one of them reaches. -/
theorem mem_of_reaches {closed : List Text} {start path : Text} (reached : Reaches lookup start path)
    (first : start ∈ closed)
    (further : ∀ unit ∈ closed, ∀ content ∈ lookup unit,
      ∀ target ∈ Import.paths content (some unit), target ∈ closed) : path ∈ closed := by
  induction reached with
  | refl => exact first
  | tail _ imported ih =>
    obtain ⟨content, found, member⟩ := imported
    exact further _ ih content found _ member

/-! ## The paths asked for -/

/-- Every path that is asked for is reached from a directive. -/
theorem Expands.asked_reached (h : Expands lookup importer seen pieces e met) :
    ∀ path ∈ e.asked, ∃ start ∈ importedBy importer pieces, Reaches lookup start path := by
  have later : ∀ {path next : Text} {starts : List Text},
      (∃ start ∈ starts, Reaches lookup start path) →
        ∃ start ∈ next :: starts, Reaches lookup start path := by
    rintro path next starts ⟨start, member, reached⟩
    exact ⟨start, .tail _ member, reached⟩
  induction h with
  | done => simp [Expansion.asked]
  | char _ ih => exact ih
  | duplicate _ _ ih =>
    intro path member
    exact later (ih path member)
  | missing _ _ _ ih =>
    intro path member
    rcases List.mem_cons.mp member with rfl | rest
    · exact ⟨_, .head _, .refl⟩
    · exact later (ih path rest)
  | file _ found _ _ innerIh restIh =>
    intro path member
    simp only [Expansion.asked, List.mem_cons, List.mem_append] at member
    rcases member with rfl | inside | rest
    · exact ⟨_, .head _, .refl⟩
    · obtain ⟨start, member, reached⟩ := innerIh path inside
      exact ⟨_, .head _, .head ((imports_of_found found start).mpr member) reached⟩
    · exact later (restIh path rest)

theorem Expands.seen_subset (h : Expands lookup importer seen pieces e met) : seen ⊆ met := by
  rw [h.met_eq]
  exact List.subset_append_left _ _

/-- The directives of a source are met in the end, and so are those of every file inlined on the
way. -/
theorem Expands.closed (h : Expands lookup importer seen pieces e met) :
    (∀ path ∈ importedBy importer pieces, path ∈ met) ∧
      ∀ path ∈ e.asked, ∀ target, Imports lookup path target → target ∈ met := by
  induction h with
  | done => simp [importedBy, Expansion.asked]
  | char _ ih => exact ih
  | duplicate known rest ih =>
    refine ⟨?_, ih.2⟩
    intro path member
    rcases List.mem_cons.mp member with rfl | member
    · exact rest.seen_subset known
    · exact ih.1 path member
  | missing _ absent rest ih =>
    constructor
    · intro path member
      rcases List.mem_cons.mp member with rfl | member
      · exact rest.seen_subset (by simp)
      · exact ih.1 path member
    · intro path member target imported
      rcases List.mem_cons.mp member with rfl | member
      · obtain ⟨content, found, _⟩ := imported
        rw [absent] at found
        cases found
      · exact ih.2 path member target imported
  | file _ found inner rest innerIh restIh =>
    constructor
    · intro path member
      rcases List.mem_cons.mp member with rfl | member
      · exact rest.seen_subset (inner.seen_subset (by simp))
      · exact restIh.1 path member
    · intro path member target imported
      simp only [Expansion.asked, List.mem_cons, List.mem_append] at member
      rcases member with rfl | inside | member
      · exact rest.seen_subset (innerIh.1 target ((imports_of_found found target).mp imported))
      · exact rest.seen_subset (innerIh.2 path inside target imported)
      · exact restIh.2 path member target imported

/-- From a fresh session exactly the paths are asked for that the directives of the source
reach. -/
theorem Expands.mem_asked_iff (h : Expands lookup importer [] pieces e met) (path : Text) :
    path ∈ e.asked ↔ ∃ start ∈ importedBy importer pieces, Reaches lookup start path := by
  refine ⟨h.asked_reached path, ?_⟩
  rintro ⟨start, member, reached⟩
  have all : met = e.asked := by simpa using h.met_eq
  obtain ⟨direct, further⟩ := h.closed
  rw [all] at direct further
  induction reached with
  | refl => exact direct start member
  | tail _ step ih => exact further _ ih _ step

/-- The inlined files are the paths asked for that have a file, in the same order. -/
theorem Expands.copies_paths (h : Expands lookup importer seen pieces e met) :
    e.copies.map Prod.fst = e.asked.filter fun path => (lookup path).isSome := by
  induction h with
  | done => rfl
  | char _ ih => exact ih
  | duplicate _ _ ih => exact ih
  | missing _ absent _ ih => simp [Expansion.copies, Expansion.asked, absent, ih]
  | file _ found _ _ innerIh restIh =>
    simp [Expansion.copies, Expansion.asked, found, innerIh, restIh]

/-! ## A file as the outermost source -/

theorem importedBy_of_plain
    (plain : ∀ d ∈ pieces.filterMap Piece.found?, Import.isRelative d.path = false)
    (importer other : Option Text) : importedBy importer pieces = importedBy other pieces := by
  refine List.map_congr_left ?_
  intro d member
  rw [Import.resolve_of_plain (plain d member), Import.resolve_of_plain (plain d member)]

/-- The texts that the expansion of the file `root` is put together from: the file itself and the
inlined files, each without its directives. -/
def Expansion.copiesFrom (root : Text) (e : Expansion) : List (Text × Text) :=
  (root, e.own) :: e.copies

/-- How often the text of a file stands in the expansion of the file `root`. -/
def Expansion.timesFrom (root : Text) (e : Expansion) (path : Text) : Nat :=
  ((e.copiesFrom root).map Prod.fst).count path

section Root

variable {source : Text}

/-- The paths asked for are those imported by a file that the outermost one reaches, itself
included. -/
theorem Expands.mem_asked_root_iff {root : Text}
    (h : Expands lookup none [] (Text.pieces Import.directive source) e met)
    (found : lookup root = some source)
    (plain : ∀ d ∈ Text.hits Import.directive source, Import.isRelative d.path = false)
    (path : Text) :
    path ∈ e.asked ↔ ∃ file, Reaches lookup root file ∧ Imports lookup file path := by
  rw [h.mem_asked_iff, importedBy_of_plain plain none (some root), ← Relation.TransGen.tail'_iff,
    Relation.TransGen.head'_iff]
  constructor
  · rintro ⟨start, member, reached⟩
    exact ⟨start, (imports_of_found found start).mpr member, reached⟩
  · rintro ⟨start, imported, reached⟩
    exact ⟨start, (imports_of_found found start).mp imported, reached⟩

/-- The text of a file stands in the expansion once for being the outermost file, and once more
for being imported by a file that is reached. -/
theorem Expands.timesFrom_eq
    (h : Expands lookup none [] (Text.pieces Import.directive source) e met)
    (root : Text) (resolved : ∀ path ∈ e.asked, (lookup path).isSome) (path : Text) :
    e.timesFrom root path =
      (if path = root then 1 else 0) + (if path ∈ e.asked then 1 else 0) := by
  have unique : e.asked.Nodup := by
    have := h.nodup .nil
    rwa [h.met_eq, List.nil_append] at this
  have all : (e.asked.filter fun path => (lookup path).isSome) = e.asked := by
    rwa [List.filter_eq_self]
  rw [Expansion.timesFrom, Expansion.copiesFrom, List.map_cons, h.copies_paths, all,
    List.count_cons, unique.count, Nat.add_comm]
  by_cases same : path = root
  · simp [same]
  · simp [same, Ne.symm same]

end Root

/-- With a level for every file, every source is flattened. -/
theorem flattenSource_of_length_le (files : Assoc Text) {limit : Int}
    (enough : files.length ≤ limit) (source : Text) (s : Session) :
    ∃ text t, runOn (flattenSource (Assoc.get? files) limit source) s = ⟨.ok text, t⟩ := by
  obtain ⟨e, met, he, shallow⟩ := exists_expands (Assoc.get? files)
    (fun _ => Assoc.mem_keys_of_get?) none s.seen (Text.pieces Import.directive source)
  have bound : unmet (Assoc.keys files) s.seen ≤ files.length := by
    have := List.length_filter_le (fun path => decide (path ∉ s.seen)) (Assoc.keys files)
    rwa [Assoc.keys, List.length_map] at this
  obtain ⟨t, run⟩ := flattenSource_of_expands limit he (by
    simp only [levelsFrom]
    omega)
  exact ⟨_, t, run⟩

/-- A file of a map whose imports are not relative is flattened as the outermost source, and all
paths that it reaches have files.  With a level for every file this ends well.  Whenever it ends
well, the result is put together from the texts of files, each without its directives: every file
that is reached stands in it once and no other does, except that the outermost file stands in it
twice if and only if a file that it reaches imports it. -/
theorem flattenSource_copies (files : Assoc Text) (root source : Text) (limit : Int)
    (found : Assoc.get? files root = some source)
    (plain : ∀ d ∈ Text.hits Import.directive source, Import.isRelative d.path = false)
    (resolved : ∀ path, Reaches (Assoc.get? files) root path → (Assoc.get? files path).isSome) :
    (files.length ≤ limit → ∃ text t,
      runOn (flattenSource (Assoc.get? files) limit source) .empty = ⟨.ok text, t⟩) ∧
    ∀ text t, runOn (flattenSource (Assoc.get? files) limit source) .empty = ⟨.ok text, t⟩ →
      ∃ e, Expands (Assoc.get? files) none [] (Text.pieces Import.directive source) e t.seen ∧
        text = tidy [] e.render ∧
        (∀ copy ∈ e.copiesFrom root, ∃ content, Assoc.get? files copy.1 = some content ∧
          copy.2 = Text.remove Import.directive content) ∧
        (∀ path, ¬ Reaches (Assoc.get? files) root path → e.timesFrom root path = 0) ∧
        (∀ path, Reaches (Assoc.get? files) root path → path ≠ root → e.timesFrom root path = 1) ∧
        ((∃ path, Reaches (Assoc.get? files) root path ∧ Imports (Assoc.get? files) path root) →
          e.timesFrom root root = 2) ∧
        ((¬ ∃ path, Reaches (Assoc.get? files) root path ∧
            Imports (Assoc.get? files) path root) → e.timesFrom root root = 1) := by
  refine ⟨fun enough => flattenSource_of_length_le files enough source _, ?_⟩
  intro text t run
  obtain ⟨e, he, rfl, _⟩ := expands_of_flattenSource run
  change Expands (Assoc.get? files) none [] _ e t.seen at he
  have asked := he.mem_asked_root_iff found plain
  have times := he.timesFrom_eq root (fun path member => by
    obtain ⟨file, reached, imported⟩ := (asked path).mp member
    exact resolved path (.tail reached imported))
  refine ⟨e, he, rfl, ?_, ?_, ?_, ?_, ?_⟩
  · intro copy member
    rcases List.mem_cons.mp member with rfl | member
    · exact ⟨source, found, he.own_eq_remove⟩
    · exact he.copies_own copy member
  · intro path unreached
    have new : path ∉ e.asked := by
      intro member
      obtain ⟨file, reached, imported⟩ := (asked path).mp member
      exact unreached (.tail reached imported)
    have other : path ≠ root := by
      rintro rfl
      exact unreached .refl
    simp [times, new, other]
  · intro path reached other
    have member : path ∈ e.asked := by
      rcases Relation.ReflTransGen.cases_tail_iff .. |>.mp reached with rfl | ⟨file, before, step⟩
      · exact absurd rfl other
      · exact (asked path).mpr ⟨file, before, step⟩
    simp [times, member, other]
  · intro back
    simp [times, (asked root).mpr back]
  · intro noBack
    have new : root ∉ e.asked := fun member => noBack ((asked root).mp member)
    simp [times, new]

/-! ## Two files that import each other -/

/-- The first of two files that import each other. -/
def mutualFirst : Text := "import \"B.sol\";\ncontract A \x7b\x7d\n"

/-- The second of them. -/
def mutualSecond : Text := "import \"A.sol\";\ncontract B \x7b\x7d\n"

/-- Two files that import each other. -/
def mutualFiles : Assoc Text := [("A.sol", mutualFirst), ("B.sol", mutualSecond)]

theorem reaches_mutualFiles {path : Text}
    (h : Reaches (Assoc.get? mutualFiles) "A.sol" path) :
    path = "A.sol".toList ∨ path = "B.sol".toList := by
  have member : path ∈ ["A.sol".toList, "B.sol".toList] :=
    mem_of_reaches h (.head _) (by decide +kernel)
  simpa only [List.mem_cons, List.not_mem_nil, or_false] using member

/-- Flattening the first of the two files puts its text into the result twice. -/
theorem flattenSource_copies_mutualFiles :
    ∃ text t e, runOn (flattenSource (Assoc.get? mutualFiles) 20 mutualFirst) .empty =
        ⟨.ok text, t⟩ ∧
      text = "contract A \x7b\x7d\n\ncontract B \x7b\x7d\n\ncontract A \x7b\x7d\n".toList ∧
      Expands (Assoc.get? mutualFiles) none [] (Text.pieces Import.directive mutualFirst) e
        t.seen ∧
      text = tidy [] e.render ∧ e.timesFrom "A.sol" "A.sol" = 2 ∧
      e.timesFrom "A.sol" "B.sol" = 1 := by
  have toSecond : Imports (Assoc.get? mutualFiles) "A.sol" "B.sol" :=
    ⟨mutualFirst, rfl, by decide⟩
  have toFirst : Imports (Assoc.get? mutualFiles) "B.sol" "A.sol" :=
    ⟨mutualSecond, rfl, by decide⟩
  obtain ⟨ends, copies⟩ := flattenSource_copies mutualFiles "A.sol" mutualFirst 20 rfl
    (by decide) (by
      intro path reached
      rcases reaches_mutualFiles reached with rfl | rfl
      · rfl
      · rfl)
  obtain ⟨text, t, run⟩ := ends (by decide)
  obtain ⟨e, he, rendered, _, _, once, twice, _⟩ := copies text t run
  have answer : (runOn (flattenSource (Assoc.get? mutualFiles) 20 mutualFirst) .empty).answer =
      .ok "contract A \x7b\x7d\n\ncontract B \x7b\x7d\n\ncontract A \x7b\x7d\n" := by
    decide +kernel
  rw [run] at answer
  refine ⟨text, t, e, run, Except.ok.inj answer, he, rendered, ?_, ?_⟩
  · exact twice ⟨"B.sol", .tail .refl toSecond, toFirst⟩
  · exact once "B.sol" (.tail .refl toSecond) (by decide)

end Flatten

end TokenForge

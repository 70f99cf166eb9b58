import TokenForge.Proofs.Compile.Closure

/-!
# A flattening and a compilation see the same files

A flattening goes through the imports of a source depth first, a search for sources takes
units off a stack.  The source has no path in the one and is the entry unit in the other,
which makes no difference if its own imports are not relative and if nothing that it
reaches has the name of the entry unit.  Both then follow the same closure
(`reaches_entry_iff`), so that they ask for the same files, and one of them misses a file
if and only if the other does.
-/

namespace TokenForge

namespace Compile

open Flatten (Imports Reaches flattenSource)

section Closure

variable {lookup : Text → Option Text} {entry source : Text}

/-- A path is reached from one of the imports of a source without a path. -/
def ReachedBy (lookup : Text → Option Text) (source path : Text) : Prop :=
  ∃ start ∈ Import.paths source none, Reaches lookup start path

theorem paths_of_plain
    (plain : ∀ d ∈ Text.hits Import.directive source, Import.isRelative d.path = false)
    (importer : Option Text) : Import.paths source importer = Import.paths source none :=
  Flatten.importedBy_of_plain plain importer none

variable (plain : ∀ d ∈ Text.hits Import.directive source, Import.isRelative d.path = false)
  (apart : ∀ path, ReachedBy lookup source path → path ≠ entry)

include plain apart

/-- The entry unit reaches itself and what its source reaches. -/
theorem reaches_entry_iff (path : Text) :
    Reaches (contentOf lookup entry source) entry path ↔
      path = entry ∨ ReachedBy lookup source path := by
  constructor
  · intro reached
    induction reached with
    | refl => exact .inl rfl
    | @tail unit path _ imported ih =>
      obtain ⟨text, stored, member⟩ := imported
      rcases ih with rfl | ⟨start, first, behind⟩
      · rw [contentOf_entry] at stored
        cases stored
        rw [paths_of_plain plain] at member
        exact .inr ⟨path, member, .refl⟩
      · rw [contentOf_of_ne (apart unit ⟨start, first, behind⟩)] at stored
        exact .inr ⟨start, first, .tail behind ⟨text, stored, member⟩⟩
  · rintro (rfl | ⟨start, first, behind⟩)
    · exact .refl
    · induction behind with
      | refl =>
        refine .tail .refl ⟨source, contentOf_entry, ?_⟩
        rw [paths_of_plain plain]
        exact first
      | @tail unit path behind imported ih =>
        obtain ⟨text, stored, member⟩ := imported
        refine .tail ih ⟨text, ?_, member⟩
        rw [contentOf_of_ne (apart unit ⟨start, first, behind⟩), stored]

/-- A path that the source reaches is one that the entry unit reaches, with the same text. -/
theorem missing_entry_iff :
    (∃ path, Reaches (contentOf lookup entry source) entry path ∧
        contentOf lookup entry source path = none) ↔
      ∃ path, ReachedBy lookup source path ∧ lookup path = none := by
  constructor
  · rintro ⟨path, reached, absent⟩
    rcases (reaches_entry_iff plain apart path).mp reached with rfl | behind
    · rw [contentOf_entry] at absent
      cases absent
    · rw [contentOf_of_ne (apart path behind)] at absent
      exact ⟨path, behind, absent⟩
  · rintro ⟨path, behind, absent⟩
    refine ⟨path, (reaches_entry_iff plain apart path).mpr (.inr behind), ?_⟩
    rw [contentOf_of_ne (apart path behind), absent]

end Closure

/-- A source whose own imports are not relative is flattened and collected over the same files,
and nothing that it reaches has the name of the entry unit.  Whenever the flattening ends well, it
has unresolved paths if and only if the search ends at a path without a file, and otherwise the
search answers and its units besides the entry unit are the paths that the flattening asked
for. -/
theorem flattenSource_collectSources (files : Assoc Text) (entry source : Text) (limit : Int)
    (bound : Nat) (enough : files.length ≤ bound)
    (plain : ∀ d ∈ Text.hits Import.directive source, Import.isRelative d.path = false)
    (apart : ∀ path, ReachedBy (Assoc.get? files) source path → path ≠ entry)
    {flat : Text} {t : Flatten.Session}
    (run : runOn (flattenSource (Assoc.get? files) limit source) .empty = ⟨.ok flat, t⟩) :
    let result := collectSources (Assoc.get? files) bound entry source
    (t.unresolved ≠ [] ↔ ∃ path, result.answer = .error (.missing path)) ∧
      (t.unresolved = [] → ∃ units, result.answer = .ok units ∧
        ∀ path, path ∈ t.calls ↔ path ∈ Assoc.keys units ∧ path ≠ entry) := by
  intro result
  obtain ⟨e, he, _, calls, unresolved⟩ := Flatten.asked_of_flattenSource run
  have asked : ∀ path, path ∈ e.asked ↔ ReachedBy (Assoc.get? files) source path :=
    he.mem_asked_iff
  have missed : t.unresolved ≠ [] ↔
      ∃ path, ReachedBy (Assoc.get? files) source path ∧ Assoc.get? files path = none := by
    rw [ne_eq, unresolved, List.filter_eq_nil_iff]
    simp [asked]
  rcases collectSources_cases files enough entry source with
    ⟨path, answer, missing⟩ | ⟨s, valid, empty, same⟩
  · change result.answer = _ at answer
    have some_missed := missed.mpr ((missing_entry_iff plain apart).mp ⟨path, missing⟩)
    exact ⟨⟨fun _ => ⟨path, answer⟩, fun _ => some_missed⟩, fun none => absurd none some_missed⟩
  · change result = _ at same
    rw [same]
    have none_missed : t.unresolved = [] := by
      by_contra some_missed
      obtain ⟨path, reached, absent⟩ := (missing_entry_iff plain apart).mpr (missed.mp some_missed)
      have present := valid.isSome_of_reaches empty reached
      rw [absent] at present
      cases present
    refine ⟨⟨fun some_missed => absurd none_missed some_missed, ?_⟩, fun _ => ⟨_, rfl, ?_⟩⟩
    · rintro ⟨path, impossible⟩
      cases impossible
    · intro path
      rw [calls, asked, valid.mem_keys_iff empty, reaches_entry_iff plain apart]
      constructor
      · intro behind
        exact ⟨.inr behind, apart path behind⟩
      · rintro ⟨same | behind, other⟩
        · exact absurd same other
        · exact behind

/-! ## A source and two files that import each other -/

/-- A source that imports one of two files. -/
def cyclicSource : Text := "import \"lib/A.sol\";\ncontract C \x7b\x7d\n"

/-- The two files. -/
def cyclicUnits : Assoc Text :=
  [("lib/A.sol", "import \"./B.sol\";\nlibrary A \x7b\x7d\n"),
    ("lib/B.sol", "import \"./A.sol\";\nlibrary B \x7b\x7d\n")]

/-- Both see the two files. -/
theorem flattenSource_collectSources_cyclicUnits :
    ∃ flat t units, runOn (flattenSource (Assoc.get? cyclicUnits) 20 cyclicSource) .empty =
        ⟨.ok flat, t⟩ ∧ t.unresolved = [] ∧
      (collectSources (Assoc.get? cyclicUnits) 2 entryUnit cyclicSource).answer = .ok units ∧
      ∀ path, path ∈ t.calls ↔ path ∈ Assoc.keys units ∧ path ≠ entryUnit := by
  have apart : ∀ path, ReachedBy (Assoc.get? cyclicUnits) cyclicSource path →
      path ≠ entryUnit := by
    rintro path ⟨start, first, behind⟩ rfl
    have known : start ∈ Assoc.keys cyclicUnits := by
      have named : ∀ path ∈ Import.paths cyclicSource none, path ∈ Assoc.keys cyclicUnits := by
        decide +kernel
      exact named start first
    have member : entryUnit ∈ Assoc.keys cyclicUnits :=
      Flatten.mem_of_reaches behind known (by decide +kernel)
    revert member
    decide
  have ends : (runOn (flattenSource (Assoc.get? cyclicUnits) 20 cyclicSource) .empty).answer =
      .ok "library B \x7b\x7d\n\nlibrary A \x7b\x7d\n\ncontract C \x7b\x7d\n" := by
    decide +kernel
  have resolved : (runOn (flattenSource (Assoc.get? cyclicUnits) 20
      cyclicSource) .empty).state.unresolved = [] := by
    decide +kernel
  generalize run : runOn (flattenSource (Assoc.get? cyclicUnits) 20 cyclicSource) .empty =
    outcome at ends resolved
  obtain ⟨flat, t⟩ := outcome
  cases ends
  obtain ⟨_, agree⟩ := flattenSource_collectSources cyclicUnits entryUnit cyclicSource 20 2
    (by decide) (by decide +kernel) apart run
  obtain ⟨units, answer, same⟩ := agree resolved
  exact ⟨_, t, units, rfl, resolved, answer, same⟩

end Compile

end TokenForge

import TokenForge.Import.Resolver
import TokenForge.Proofs.Text.Reading

/-!
# Which package a path goes to

A path goes to the first package whose prefix it begins with (`GoesTo`), wherever in a
component of the path the prefix ends, and to no package if it begins with none.

So a path that does not lie in any package (`LiesIn`) may go to one nevertheless, and then
neither the path itself nor a search directory is tried.  `Resolver.candidates_ofPaths` says
what is tried for every path, and for which of those paths that is what is tried without
the packages.
-/

namespace TokenForge

namespace Import

/-- A path names a place or one below it: what follows the name of the place is nothing or
starts with a slash. -/
def LiesIn (start path : Text) : Prop := path = start ∨ ∃ rest, path = start ++ '/' :: rest

/-- A path begins with the prefix `start` of a package, in front of `rest`, and with no prefix of
a package before it. -/
inductive GoesTo (path : Text) : Assoc Text → Text → Text → Text → Prop where
  | first {packages : Assoc Text} {start directory rest : Text} :
    path = start ++ rest → GoesTo path ((start, directory) :: packages) start directory rest
  | later {packages : Assoc Text} {start directory rest : Text} {e : Text × Text} :
    ¬ e.1 <+: path → GoesTo path packages start directory rest →
    GoesTo path (e :: packages) start directory rest

variable {packages : Assoc Text} {start directory path rest : Text}

theorem GoesTo.split (h : GoesTo path packages start directory rest) : path = start ++ rest := by
  induction h with
  | first split => exact split
  | later _ _ ih => exact ih

theorem GoesTo.mem (h : GoesTo path packages start directory rest) :
    (start, directory) ∈ packages := by
  induction h with
  | first => exact .head _
  | later _ _ ih => exact .tail _ ih

/-- There is one package at most that a path goes to. -/
theorem GoesTo.unique {start' directory' rest' : Text}
    (h : GoesTo path packages start directory rest)
    (h' : GoesTo path packages start' directory' rest') :
    start = start' ∧ directory = directory' := by
  induction h with
  | first split =>
    cases h' with
    | first => exact ⟨rfl, rfl⟩
    | later outside => exact absurd ⟨_, split.symm⟩ outside
  | later outside _ ih =>
    cases h' with
    | first split => exact absurd ⟨_, split.symm⟩ outside
    | later _ goes => exact ih goes

/-- A path goes to some package unless it begins with no prefix. -/
theorem goesTo_or_outside (packages : Assoc Text) (path : Text) :
    (∃ start directory rest, GoesTo path packages start directory rest) ∨
      ∀ e ∈ packages, ¬ e.1 <+: path := by
  induction packages with
  | nil => exact .inr fun e member => absurd member List.not_mem_nil
  | cons e packages ih =>
    by_cases here : e.1 <+: path
    · obtain ⟨rest, split⟩ := here
      exact .inl ⟨e.1, e.2, rest, .first split.symm⟩
    · rcases ih with ⟨start, directory, rest, goes⟩ | outside
      · exact .inl ⟨start, directory, rest, .later here goes⟩
      · exact .inr (List.forall_mem_cons.mpr ⟨here, outside⟩)

namespace Resolver

/-! ## The file of a package -/

theorem inPackage?_cons (e : Text × Text) (packages : Assoc Text) (path : Text) :
    inPackage? (e :: packages) path = match Text.after? e.1 path with
      | some rest => some (Path.join e.2 (rest.dropWhile (· == '/')))
      | none => inPackage? packages path := by
  obtain ⟨start, directory⟩ := e
  rw [inPackage?, List.findSome?_cons]
  cases taken : Text.after? start path <;> simp only [taken] <;> rfl

theorem after?_of_not_prefix {start path : Text} (h : ¬ start <+: path) :
    Text.after? start path = none := by
  refine Option.eq_none_iff_forall_ne_some.mpr fun rest taken => h ⟨rest, ?_⟩
  exact (Text.after?_eq_some_iff.mp taken).symm

theorem inPackage?_of_goesTo (h : GoesTo path packages start directory rest) :
    inPackage? packages path = some (Path.join directory (rest.dropWhile (· == '/'))) := by
  induction h with
  | first split => rw [inPackage?_cons, split, Text.after?_append]
  | later outside _ ih => rw [inPackage?_cons, after?_of_not_prefix outside, ih]

theorem inPackage?_of_outside (h : ∀ e ∈ packages, ¬ e.1 <+: path) :
    inPackage? packages path = none := by
  induction packages with
  | nil => rfl
  | cons e packages ih =>
    rw [inPackage?_cons, after?_of_not_prefix (h e (.head _)),
      ih fun e member => h e (.tail _ member)]

/-! ## Candidates -/

/-- The files that are tried for a path that goes to no package. -/
def ordinary (r : Resolver) (path : Text) : List Text :=
  path :: r.directories.map fun directory => Path.join directory path

/-- The file of a package has the name of its path only if both the prefix and the directory are
empty, where the prefix ends within a component. -/
theorem join_eq_append_iff (cut : start.getLast? ≠ some '/') (inside : rest.head? ≠ some '/') :
    Path.join directory rest = start ++ rest ↔ start = [] ∧ directory = [] := by
  rw [Path.join, if_neg inside]
  split
  · rename_i closed
    rw [List.append_cancel_right_eq]
    constructor
    · rintro rfl
      exact ⟨closed.resolve_right cut, closed.resolve_right cut⟩
    · rintro ⟨rfl, rfl⟩
      rfl
  · rename_i slash
    rw [List.append_cancel_right_eq]
    constructor
    · rintro rfl
      exact absurd List.getLast?_concat cut
    · rintro ⟨-, rfl⟩
      exact absurd (.inl rfl) slash

theorem candidates_of_goesTo {r : Resolver} (h : GoesTo path r.packages start directory rest) :
    r.candidates path = [Path.join directory (rest.dropWhile (· == '/'))] := by
  rw [candidates, inPackage?_of_goesTo h]

theorem candidates_of_outside {r : Resolver} (h : ∀ e ∈ r.packages, ¬ e.1 <+: path) :
    r.candidates path = r.ordinary path := by
  rw [candidates, inPackage?_of_outside h, ordinary]

/-- Where the prefix of a package ends within a component of a path, the file of the package is
what is tried without packages only if nothing stands for the package and nowhere is searched. -/
theorem candidates_eq_ordinary_iff {r : Resolver}
    (h : GoesTo path r.packages start directory rest) (cut : start.getLast? ≠ some '/')
    (beside : ¬ LiesIn start path) :
    r.candidates path = r.ordinary path ↔ r.directories = [] ∧ start = [] ∧ directory = [] := by
  have inside : rest.head? ≠ some '/' := by
    intro slash
    obtain ⟨below, rfl⟩ := List.head?_eq_some_iff.mp slash
    exact beside (.inr ⟨below, h.split⟩)
  have kept : rest.dropWhile (· == '/') = rest :=
    Text.dropWhile_of_stops fun c first =>
      beq_eq_false_iff_ne.mpr fun slash => inside (slash ▸ first)
  rw [candidates_of_goesTo h, kept, ordinary, h.split, List.cons_eq_cons,
    join_eq_append_iff cut inside, @eq_comm _ [] (List.map _ _), List.map_eq_nil_iff]
  exact and_comm

/-- A path that begins with a prefix goes to the first such package, and the file of the package
is all that is tried; otherwise the path and the search directories are tried.  A path in no
package, where no prefix ends in a slash, is tried as it is without packages only if it begins
with no prefix, apart from the empty prefix of no directory. -/
theorem candidates_ofPaths (packages : Assoc Text) (directories : List Text) (path : Text) :
    let r := ofPaths packages directories
    (∀ start directory rest, GoesTo path packages start directory rest →
        r.candidates path = [Path.join directory (rest.dropWhile (· == '/'))]) ∧
      ((∀ e ∈ packages, ¬ e.1 <+: path) → r.candidates path = r.ordinary path) ∧
      ((∀ e ∈ packages, e.1.getLast? ≠ some '/' ∧ ¬ LiesIn e.1 path) →
        (r.candidates path = r.ordinary path ↔
          (∀ e ∈ packages, ¬ e.1 <+: path) ∨
            directories = [] ∧ GoesTo path packages [] [] path)) := by
  intro r
  refine ⟨fun start directory rest => candidates_of_goesTo (r := r),
    candidates_of_outside (r := r), fun beside => ?_⟩
  rcases goesTo_or_outside packages path with ⟨start, directory, rest, goes⟩ | outside
  · have reached : ¬ ∀ e ∈ packages, ¬ e.1 <+: path :=
      fun outside => outside _ goes.mem ⟨rest, goes.split.symm⟩
    have nowhere : r.directories = [] ↔ directories = [] := List.map_eq_nil_iff
    rw [candidates_eq_ordinary_iff goes (beside _ goes.mem).1 (beside _ goes.mem).2, nowhere,
      or_iff_right reached]
    refine and_congr_right fun _ => ⟨?_, fun empty => ?_⟩
    · rintro ⟨rfl, rfl⟩
      obtain rfl : path = rest := goes.split
      exact goes
    · exact goes.unique empty
  · exact iff_of_true (candidates_of_outside outside) (.inl outside)

/-- The library that can be upgraded lies beside the shared one and is looked for within it. -/
example :
    (ofPaths defaultPackages ["lib"]).candidates "@openzeppelin/contracts-upgradeable/ERC20.sol" =
      (["./node_modules/@openzeppelin/contracts/-upgradeable/ERC20.sol"] : List Text) := by
  decide

end Resolver

end Import

end TokenForge

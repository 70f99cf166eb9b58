import TokenForge.Assoc
import TokenForge.Proofs.Flatten.Expansion
import TokenForge.Proofs.Flatten.PreambleLine
import TokenForge.Proofs.Path

/-!
# The reference for flattening

The *reference* flattens documents line by line and never looks into the text of a line.
It walks through the lines in order:

* a directive line whose path was met before is dropped;
* one whose path is new and has no file becomes a comment that names the path;
* one whose path is new and has a file becomes the reference lines of the file without
  its license lines and version pragmas;
* every other line stays.

In the end the first pragma of each feature is kept.  The walk ends because every file it
goes into is one less to be met.
-/

namespace TokenForge

namespace Flatten

/-! ## Paths -/

/-- The path that a directive means in a file. -/
def DirectiveLine.target (d : DirectiveLine) (importer : Option LinePath) : LinePath where
  val := Import.resolve d.path.1 (importer.map Subtype.val)
  property := by
    refine Import.resolve_single (fun member => (d.path.2.2 _ member).2.1 rfl) ?_
    intro file member
    obtain ⟨path, _, rfl⟩ := Option.map_eq_some_iff.mp member
    exact path.2

/-! ## Entries -/

/-- An empty line. -/
def Entry.empty : Entry :=
  .own (.other ⟨[], by simp, by simp, by decide, by decide, by decide⟩)

theorem Entry.text_empty : Entry.empty.text = [] := rfl

/-- Whether an entry belongs to the preamble of a file. -/
def Entry.isPreamble (e : Entry) : Bool := e.license?.isSome || e.version?.isSome

/-- The entries with the first pragma of each feature that is not yet turned on. -/
def keepFirst : List Preamble.Feature → List Entry → List Entry
  | _, [] => []
  | on, e :: entries =>
    match e.feature? with
    | none => e :: keepFirst on entries
    | some feature =>
      if feature ∈ on then keepFirst on entries else e :: keepFirst (on ++ [feature]) entries

/-! ## The walk -/

/-- What a walk comes to that has met the paths `met` before. -/
structure Walked (met : List Text) where
  /-- The lines in the place of those that were walked through. -/
  entries : List Entry
  /-- The paths that are met by then. -/
  after : List Text
  grown : met ⊆ after

/-- The lines in the place of lines of a file. -/
def walk (files : Assoc Document) (importer : Option LinePath) (met : List Text) :
    List Line → Walked met
  | [] => ⟨[], met, List.Subset.refl _⟩
  | .directive d :: lines =>
    let path := d.target importer
    if _known : path.1 ∈ met then walk files importer met lines
    else
      match _found : Assoc.get? files path.1 with
      | none =>
        let rest := walk files importer (met ++ [path.1]) lines
        ⟨.missing path :: rest.entries, rest.after,
          List.Subset.trans (List.subset_append_left _ _) rest.grown⟩
      | some document =>
        let inner := walk files (some path) (met ++ [path.1]) document.lines
        let rest := walk files importer inner.after lines
        ⟨inner.entries.filter (!·.isPreamble) ++ rest.entries, rest.after,
          List.Subset.trans (List.subset_append_left _ _)
            (List.Subset.trans inner.grown rest.grown)⟩
  | l :: lines =>
    let rest := walk files importer met lines
    ⟨.own l :: rest.entries, rest.after, rest.grown⟩
termination_by lines => (unmet (Assoc.keys files) met, lines.length)
decreasing_by
  · exact Prod.Lex.right _ (by simp)
  · exact Prod.Lex.right' _ (unmet_anti (List.subset_append_left _ _)) (by simp)
  · exact Prod.Lex.left _ _ (unmet_lt (Assoc.mem_keys_of_get? (by simp [path, _found])) _known)
  · exact Prod.Lex.right' _
      (unmet_anti (List.Subset.trans (List.subset_append_left _ _) inner.grown)) (by simp)
  · exact Prod.Lex.right _ (by simp)

section Steps

variable {files : Assoc Document} {importer : Option LinePath} {met : List Text} {l : Line}
  {d : DirectiveLine} {lines : List Line}

theorem walk_nil : walk files importer met [] = ⟨[], met, List.Subset.refl _⟩ := by
  rw [walk]

theorem walk_own (own : l.directive? = none) : walk files importer met (l :: lines) =
    ⟨.own l :: (walk files importer met lines).entries, (walk files importer met lines).after,
      (walk files importer met lines).grown⟩ := by
  cases l with
  | directive d => cases own
  | _ => rw [walk]; simp

theorem directive?_eq_none (h : ∀ d, l = .directive d → False) : l.directive? = none := by
  cases l with
  | directive d => exact absurd rfl (h d)
  | _ => rfl

theorem walk_known (known : (d.target importer).1 ∈ met) :
    walk files importer met (.directive d :: lines) = walk files importer met lines := by
  rw [walk]
  simp only [known, dif_pos]

theorem walk_missing (new : (d.target importer).1 ∉ met)
    (absent : Assoc.get? files (d.target importer).1 = none) :
    (walk files importer met (.directive d :: lines)).entries = .missing (d.target importer) ::
        (walk files importer (met ++ [(d.target importer).1]) lines).entries ∧
      (walk files importer met (.directive d :: lines)).after =
        (walk files importer (met ++ [(d.target importer).1]) lines).after := by
  rw [walk]
  simp only [new, dif_neg, not_false_eq_true]
  split
  · exact ⟨rfl, rfl⟩
  · next found =>
    rw [absent] at found
    cases found

theorem walk_file {document : Document} (new : (d.target importer).1 ∉ met)
    (found : Assoc.get? files (d.target importer).1 = some document) :
    (walk files importer met (.directive d :: lines)).entries =
        (walk files (some (d.target importer)) (met ++ [(d.target importer).1])
            document.lines).entries.filter (!·.isPreamble) ++
          (walk files importer (walk files (some (d.target importer))
            (met ++ [(d.target importer).1]) document.lines).after lines).entries ∧
      (walk files importer met (.directive d :: lines)).after =
        (walk files importer (walk files (some (d.target importer))
          (met ++ [(d.target importer).1]) document.lines).after lines).after := by
  rw [walk]
  simp only [new, dif_neg, not_false_eq_true]
  split
  · next absent =>
    rw [absent] at found
    cases found
  · next found' =>
    rw [found'] at found
    cases found
    exact ⟨rfl, rfl⟩

end Steps

/-- The lines of a flattened document by the reference. -/
def referenceLines (files : Assoc Document) (source : Document) : List Text :=
  (keepFirst [] (walk files none [] source.lines).entries).map Entry.text

end Flatten

end TokenForge

import TokenForge.Import.Directive
import TokenForge.Proofs.Text.Lines

/-!
# The characters of a path

Joining and normalizing paths brings no characters in, except for slashes and dots
(`mem_normalize`).  A path that an import means therefore stands on one line if the path
as it is written does, and the path of the file does (`Import.resolve_single`).
-/

namespace TokenForge

/-- The characters of the pieces of a text are characters of the text. -/
theorem Text.mem_of_mem_splitOn {sep : Char} {s piece : Text} {c : Char}
    (h : piece ∈ splitOn sep s) (inside : c ∈ piece) : c ∈ s := by
  induction s generalizing piece with
  | nil =>
    simp only [splitOn, List.mem_singleton] at h
    simp [h] at inside
  | cons d s ih =>
    by_cases hd : d = sep
    · simp only [splitOn, if_pos hd, List.mem_cons] at h
      rcases h with rfl | h
      · cases inside
      · exact .tail _ (ih h inside)
    · cases hs : splitOn sep s with
      | nil => exact absurd hs (splitOn_ne_nil sep s)
      | cons first pieces =>
        simp only [splitOn, if_neg hd, hs, List.mem_cons] at h
        rcases h with rfl | h
        · have member : first ∈ splitOn sep s := by simp [hs]
          rcases List.mem_cons.mp inside with rfl | inside
          · exact .head _
          · exact .tail _ (ih member inside)
        · exact .tail _ (ih (by simp [hs, h]) inside)

namespace Path

/-- A component of a normalized path is one of the path or leads up. -/
theorem mem_foldl_push {absolute : Bool} {components above : List Text} {component : Text}
    (h : component ∈ components.foldl (push absolute) above) :
    component = up ∨ component ∈ components ∨ component ∈ above := by
  induction components generalizing above with
  | nil => exact .inr (.inr h)
  | cons next components ih =>
    have pushed : ∀ part ∈ push absolute above next, part = up ∨ part = next ∨ part ∈ above := by
      intro part member
      unfold push at member
      split at member
      · exact .inr (.inr member)
      · split at member
        · split at member
          · split at member
            · cases member
            · exact .inl (List.mem_singleton.mp member)
          · split at member
            · rcases List.mem_cons.mp member with same | member
              · exact .inl same
              · exact .inr (.inr member)
            · exact .inr (.inr (.tail _ member))
        · rcases List.mem_cons.mp member with same | member
          · exact .inr (.inl same)
          · exact .inr (.inr member)
    rcases ih h with same | later | before
    · exact .inl same
    · exact .inr (.inl (.tail _ later))
    · rcases pushed component before with same | same | before
      · exact .inl same
      · exact .inr (.inl (same ▸ .head _))
      · exact .inr (.inr before)

theorem mem_root {path : Text} {c : Char} (h : c ∈ root path) : c = '/' := by
  unfold root at h
  split at h
  · exact List.mem_singleton.mp h
  · simpa using h
  · exact List.mem_singleton.mp h
  · cases h

/-- A normalized path has no characters but those of the path, slashes and dots. -/
theorem mem_normalize {path : Text} {c : Char} (h : c ∈ normalize path) :
    c ∈ path ∨ c = '/' ∨ c = '.' := by
  simp only [normalize] at h
  split at h
  · exact .inr (.inr (List.mem_singleton.mp h))
  · rcases List.mem_append.mp h with slash | inside
    · exact .inr (.inl (mem_root slash))
    · rcases mem_intercalate inside with slash | ⟨component, member, inside⟩
      · exact .inr (.inl (List.mem_singleton.mp slash))
      · rcases mem_foldl_push (List.mem_reverse.mp member) with rfl | member | member
        · have : c = '.' := by simpa [up] using inside
          exact .inr (.inr this)
        · exact .inl (Text.mem_of_mem_splitOn member inside)
        · cases member

theorem mem_stripEndWith {p : Char → Bool} {s : Text} {c : Char}
    (h : c ∈ Text.stripEndWith p s) : c ∈ s := by
  have := (List.dropWhile_suffix p).subset (List.mem_reverse.mp h)
  exact List.mem_reverse.mp this

theorem mem_directory {path : Text} {c : Char} (h : c ∈ directory path) : c ∈ path := by
  simp only [directory] at h
  split at h
  · exact mem_stripEndWith h
  · exact mem_stripEndWith (mem_stripEndWith h)

theorem mem_join {directory path : Text} {c : Char} (h : c ∈ join directory path) :
    c ∈ directory ∨ c ∈ path ∨ c = '/' := by
  unfold join at h
  split at h
  · exact .inr (.inl h)
  · split at h
    · rcases List.mem_append.mp h with h | h
      · exact .inl h
      · exact .inr (.inl h)
    · rcases List.mem_append.mp h with h | h
      · rcases List.mem_append.mp h with h | h
        · exact .inl h
        · exact .inr (.inr (List.mem_singleton.mp h))
      · exact .inr (.inl h)

end Path

/-- A path that is not relative means the same in every file. -/
theorem Import.resolve_of_plain {path : Text} (plain : Import.isRelative path = false)
    (importer : Option Text) : Import.resolve path importer = path := by
  rcases importer with _ | _ | ⟨c, s⟩ <;> simp [Import.resolve, plain]

/-- Resolving brings no character into a path but those of the path of the file, a slash and a
dot. -/
theorem Import.resolve_not_mem {c : Char} (plain : c ≠ '/' ∧ c ≠ '.') {path : Text}
    {importer : Option Text} (absent : c ∉ path) (within : ∀ file ∈ importer, c ∉ file) :
    c ∉ Import.resolve path importer := by
  unfold Import.resolve
  split
  · exact absent
  · exact absent
  · next file _ =>
    split
    · intro member
      rcases Path.mem_normalize member with member | slash | dot
      · rcases Path.mem_join member with member | member | slash
        · exact within file rfl (Path.mem_directory member)
        · exact absent member
        · exact plain.1 slash
      · exact plain.1 slash
      · exact plain.2 dot
    · exact absent

/-- An import in a file whose path stands on one line means a path that does. -/
theorem Import.resolve_single {path : Text} {importer : Option Text} (single : '\n' ∉ path)
    (within : ∀ file ∈ importer, '\n' ∉ file) : '\n' ∉ Import.resolve path importer :=
  Import.resolve_not_mem (by decide) single within

end TokenForge

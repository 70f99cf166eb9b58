import Mathlib.Data.List.Basic
import TokenForge.Proofs.Path
import TokenForge.Proofs.Text.Stripped

/-!
# Normal paths

Normalizing a path a second time changes nothing (`normalize_normalize`), so the `Normal` paths
are those that are normalized.  The components that are left of a path are `Reduced`: each is a
name, or leads up with nothing but such before it, and none does below the root.  Reduced
components are taken one after the other as they are (`foldl_push_of_reduced`).
-/

namespace TokenForge

/-- No piece of a text holds the separator. -/
theorem Text.not_mem_of_mem_splitOn {sep : Char} {s piece : Text} (h : piece ∈ splitOn sep s) :
    sep ∉ piece := by
  induction s generalizing piece with
  | nil =>
    rw [splitOn, List.mem_singleton] at h
    simp [h]
  | cons c s ih =>
    by_cases hc : c = sep
    · rw [splitOn, if_pos hc, List.mem_cons] at h
      rcases h with rfl | h
      · exact List.not_mem_nil
      · exact ih h
    · rw [splitOn, if_neg hc] at h
      split at h
      next cut => exact absurd cut (splitOn_ne_nil sep s)
      next first pieces cut =>
        rw [cut] at ih
        rcases List.mem_cons.mp h with rfl | h
        · rw [List.mem_cons, not_or]
          exact ⟨Ne.symm hc, ih (.head _)⟩
        · exact ih (.tail _ h)

namespace Path

variable {absolute : Bool} {above components : List Text} {component path : Text}

/-- A path that is normalized as it is. -/
def Normal (path : Text) : Prop := normalize path = path

instance (path : Text) : Decidable (Normal path) := inferInstanceAs (Decidable (_ = _))

/-! ## Reduced components -/

/-- A component that names something. -/
structure IsName (component : Text) : Prop where
  nonempty : component ≠ []
  notHere : component ≠ here
  notUp : component ≠ up
  single : '/' ∉ component

/-- The components of a path, of which the last one comes first, are names behind components
that lead up, and none leads up at the root. -/
inductive Reduced : Bool → List Text → Prop where
  | nil {absolute : Bool} : Reduced absolute []
  | up {above : List Text} :
    (∀ component ∈ above, component = up) → Reduced false above → Reduced false (up :: above)
  | name {absolute : Bool} {component : Text} {above : List Text} :
    IsName component → Reduced absolute above → Reduced absolute (component :: above)

theorem Reduced.mem (h : Reduced absolute above) :
    ∀ component ∈ above, component ≠ [] ∧ '/' ∉ component := by
  induction h with
  | nil => exact fun component member => absurd member List.not_mem_nil
  | up _ _ ih => exact List.forall_mem_cons.mpr ⟨by decide, ih⟩
  | name named _ ih => exact List.forall_mem_cons.mpr ⟨⟨named.nonempty, named.single⟩, ih⟩

theorem push_name (named : IsName component) (above : List Text) :
    push absolute above component = component :: above := by
  unfold push
  rw [if_neg (not_or.mpr ⟨named.nonempty, named.notHere⟩), if_neg named.notUp]

/-- One more component leaves components reduced. -/
theorem Reduced.push (h : Reduced absolute above) (single : '/' ∉ component) :
    Reduced absolute (push absolute above component) := by
  unfold Path.push
  split
  · exact h
  · rename_i visible
    rw [not_or] at visible
    split
    · cases h with
      | nil =>
        cases absolute with
        | true => exact .nil
        | false => exact .up (fun _ member => absurd member List.not_mem_nil) .nil
      | up ups rest =>
        dsimp only
        rw [if_pos rfl]
        exact .up (List.forall_mem_cons.mpr ⟨rfl, ups⟩) (.up ups rest)
      | name named rest =>
        dsimp only
        rw [if_neg named.notUp]
        exact rest
    · rename_i notUp
      exact .name ⟨visible.1, visible.2, notUp, single⟩ h

theorem reduced_foldl_push (h : Reduced absolute above)
    (single : ∀ component ∈ components, '/' ∉ component) :
    Reduced absolute (components.foldl (Path.push absolute) above) := by
  induction components generalizing above with
  | nil => exact h
  | cons component components ih =>
    rw [List.forall_mem_cons] at single
    exact ih (h.push single.1) single.2

/-- Reduced components stay as they are. -/
theorem foldl_push_of_reduced (h : Reduced absolute above) :
    above.reverse.foldl (Path.push absolute) [] = above := by
  induction h with
  | nil => rfl
  | @up above ups _ ih =>
    rw [List.reverse_cons, List.foldl_append, ih, List.foldl_cons, List.foldl_nil]
    cases above with
    | nil => rfl
    | cons c above =>
      obtain rfl : c = Path.up := ups c (.head _)
      rfl
  | name named _ ih =>
    rw [List.reverse_cons, List.foldl_append, ih, List.foldl_cons, List.foldl_nil,
      push_name named]

/-! ## The text of a normalized path -/

/-- The slashes that a path may start with. -/
def IsRoot (slashes : Text) : Prop := slashes = [] ∨ slashes = ['/'] ∨ slashes = ['/', '/']

theorem isRoot_root (path : Text) : IsRoot (root path) := by
  unfold root IsRoot
  split <;> simp

/-- Behind its slashes a path starts with another character, if it goes on at all. -/
theorem root_append {slashes rest : Text} (slash : IsRoot slashes) (first : rest.head? ≠ some '/') :
    root (slashes ++ rest) = slashes := by
  cases rest with
  | nil => rcases slash with rfl | rfl | rfl <;> rfl
  | cons c rest =>
    have other : c ≠ '/' := by simpa using first
    rcases slash with rfl | rfl | rfl <;> simp [root, other]

/-- The slashes before the components add none. -/
theorem foldl_push_root {slashes : Text} (slash : IsRoot slashes) (rest : Text) :
    (Text.splitOn '/' (slashes ++ rest)).foldl (Path.push absolute) [] =
      (Text.splitOn '/' rest).foldl (Path.push absolute) [] := by
  rcases slash with rfl | rfl | rfl <;> rfl

/-- The text of reduced components has these components. -/
theorem foldl_push_intercalate (h : Reduced absolute above) :
    (Text.splitOn '/' (List.intercalate ['/'] above.reverse)).foldl (Path.push absolute) [] =
      above := by
  by_cases some_component : above.reverse = []
  · obtain rfl := List.reverse_eq_nil_iff.mp some_component
    rfl
  · have cut : Text.splitOn '/' (List.intercalate ['/'] above.reverse) = above.reverse := by
      rw [Text.splitOn_intercalate '/' some_component]
      refine Eq.trans (List.flatMap_congr fun component member => ?_) (List.flatMap_singleton' _)
      exact Text.splitOn_of_not_mem (h.mem component (List.mem_reverse.mp member)).2
    rw [cut, foldl_push_of_reduced h]

theorem head?_intercalate (h : ∀ component ∈ components, component ≠ [] ∧ '/' ∉ component) :
    (List.intercalate ['/'] components).head? ≠ some '/' := by
  cases components with
  | nil => simp
  | cons first components =>
    obtain ⟨nonempty, single⟩ := h first (.head _)
    obtain ⟨c, rest, rfl⟩ := List.exists_cons_of_ne_nil nonempty
    have other : c ≠ '/' := fun same => single (same ▸ .head _)
    cases components <;> simpa [List.intercalate] using other

/-! ## Normalization -/

/-- The text of slashes and reduced components is normal, if there are any. -/
theorem normal_text {slashes : Text} (slash : IsRoot slashes)
    (h : Reduced (!slashes.isEmpty) above)
    (some_text : slashes ++ List.intercalate ['/'] above.reverse ≠ []) :
    Normal (slashes ++ List.intercalate ['/'] above.reverse) := by
  have first := head?_intercalate fun component member =>
    h.mem component (List.mem_reverse.mp member)
  unfold Normal normalize
  dsimp only
  rw [root_append slash first, foldl_push_root slash, foldl_push_intercalate h]
  split
  next none => exact absurd none some_text
  next => rfl

theorem normal_here : Normal here := by decide

/-- Normalizing a path a second time changes nothing. -/
theorem normal_normalize (path : Text) : Normal (normalize path) := by
  rw [normalize]
  split
  · exact normal_here
  · rename_i some_text
    refine normal_text (isRoot_root path) ?_ some_text
    exact reduced_foldl_push .nil fun component => Text.not_mem_of_mem_splitOn

theorem Normal.ne_nil (h : Normal path) : path ≠ [] := by
  rintro rfl
  exact absurd h (by decide)

end Path

end TokenForge

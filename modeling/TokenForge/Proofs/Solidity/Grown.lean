import TokenForge.Proofs.Solidity.Lines

/-!
# Lines that are added

`Grown old added new` says that the lines `new` are the lines `old` with the lines `added` and
any number of empty ones among them, all in order.  Printing keeps this up: lines that are
added to a member are added to the contract, and an empty line comes with them where a
member had no lines before (`Grown.spaced`).
-/

namespace TokenForge

namespace Solidity

open Text

/-- Lines with others and any number of empty ones among them. -/
inductive Grown : List Text → List Text → List Text → Prop
  | nil : Grown [] [] []
  | kept {old added new : List Text} (line : Text) :
      Grown old added new → Grown (line :: old) added (line :: new)
  | more {old added new : List Text} (line : Text) :
      Grown old added new → Grown old (line :: added) (line :: new)
  | gap {old added new : List Text} : Grown old added new → Grown old added ([] :: new)

namespace Grown

variable {old added new old' added' new' : List Text}

theorem refl (lines : List Text) : Grown lines [] lines := by
  induction lines with
  | nil => exact .nil
  | cons line lines ih => exact ih.kept line

/-- Where there were no lines. -/
theorem all (lines : List Text) : Grown [] lines lines := by
  induction lines with
  | nil => exact .nil
  | cons line lines ih => exact ih.more line

theorem append (h : Grown old added new) (h' : Grown old' added' new') :
    Grown (old ++ old') (added ++ added') (new ++ new') := by
  induction h with
  | nil => exact h'
  | kept line _ ih => exact ih.kept line
  | more line _ ih => exact ih.more line
  | gap _ ih => exact ih.gap

/-- Lines that are added at two places. -/
theorem between (first second third more later : List Text) :
    Grown (first ++ (second ++ third)) (more ++ later)
      (first ++ (more ++ (second ++ (later ++ third)))) := by
  have behind := (all later).append (refl third)
  have middle := (all more).append ((refl second).append behind)
  simpa using (refl first).append middle

/-- The old lines are a subsequence of the new ones. -/
theorem sublist (h : Grown old added new) : old.Sublist new := by
  induction h with
  | nil => exact .slnil
  | kept line _ ih => exact ih.cons_cons line
  | more line _ ih => exact ih.cons line
  | gap _ ih => exact ih.cons []

theorem ne_nil (h : Grown old added new) (some_line : old ≠ []) : new ≠ [] := by
  rintro rfl
  exact some_line (List.eq_nil_of_sublist_nil h.sublist)

/-! ## Printing -/

theorem indent (h : Grown old added new) :
    Grown (Solidity.indent old) (Solidity.indent added) (Solidity.indent new) := by
  induction h with
  | nil => exact .nil
  | kept line _ ih => exact ih.kept _
  | more line _ ih => exact ih.more _
  | gap _ ih => exact ih.gap

/-- If a member had no lines before, the empty line behind it is added with its lines. -/
theorem spaced (h : Grown old added new) :
    Grown (Solidity.spaced old) (Solidity.indent added) (Solidity.spaced new) := by
  unfold Solidity.spaced
  by_cases before : old = []
  · rw [if_pos before]
    subst before
    have grown : Grown [] (Solidity.indent added) (Solidity.indent new) := h.indent
    split
    · rename_i after
      rw [after] at grown
      exact grown
    · simpa using grown.append (.gap .nil)
  · rw [if_neg before, if_neg (h.ne_nil before)]
    simpa using h.indent.append (.refl [[]])

/-- A line of the library that is added is not cut, whatever else is. -/
theorem cut (h : Grown old added new) (single : ∀ line ∈ added, '\n' ∉ line) :
    Grown (old.flatMap (splitOn '\n')) added (new.flatMap (splitOn '\n')) := by
  induction h with
  | nil => exact .nil
  | kept line _ ih => exact (refl (splitOn '\n' line)).append (ih single)
  | more line _ ih =>
    rw [List.flatMap_cons, splitOn_of_not_mem (single line (.head _))]
    exact (ih fun line member => single line (.tail _ member)).more line
  | gap _ ih => exact (ih single).gap

end Grown

end Solidity

end TokenForge

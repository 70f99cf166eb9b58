import Mathlib.Data.List.Sort
import Mathlib.Order.Defs.LinearOrder
import TokenForge.Version.Basic

/-!
# The precedence of versions

Versions are compared part by part, and each part by keys of its own.  So the precedence is a
total preorder (`transCmp_order`).  It does not tell versions apart that differ in their build
only, which is why it is no order.

A list that is sorted by a total preorder is ascending (`pairwise_sortBy`), so that nothing in it
comes after its last element (`le_getLast?`).
-/

namespace TokenForge

open Std (TransCmp OrientedCmp)

/-! ## Comparing by parts -/

namespace Version

theorem compareLists_eq {α : Type} (order : α → α → Ordering) :
    compareLists order = List.compareLex order := by
  funext as bs
  induction as generalizing bs with
  | nil => cases bs <;> rfl
  | cons a as ih =>
    cases bs with
    | nil => rfl
    | cons b bs => rw [compareLists, ih, List.compareLex_cons_cons]

instance transCmp_compareLists {α : Type} (order : α → α → Ordering) [TransCmp order] :
    TransCmp (compareLists order) := by
  rw [compareLists_eq]
  infer_instance

theorem textOrder_eq : Text.order = compareLists (compareOn Char.toNat) := by
  funext s t
  induction s generalizing t with
  | nil => cases t <;> rfl
  | cons c s ih =>
    cases t with
    | nil => rfl
    | cons d t => rw [Text.order, ih, compareLists, compareOn]

instance transCmp_textOrder : TransCmp Text.order := by
  rw [textOrder_eq]
  infer_instance

/-- Numbers come before words. -/
def identifierRank (a : Text) : Nat := if isNumeric a then 0 else 1

/-- The number that an identifier is, and zero for a word. -/
def identifierNumber (a : Text) : Nat := if isNumeric a then Text.ofAsciiDigits a else 0

/-- The word that an identifier is, and no letters for a number. -/
def identifierWord (a : Text) : Text := if isNumeric a then [] else a

theorem compareIdentifier_eq : compareIdentifier =
    compareLex (compareOn identifierRank) (compareLex (compareOn identifierNumber)
      (Ordering.byKey identifierWord Text.order)) := by
  funext a b
  simp only [compareIdentifier, compareLex, compareOn, Ordering.byKey, identifierRank,
    identifierNumber, identifierWord]
  cases isNumeric a <;> cases isNumeric b
  · show _ = (compare 1 1).then ((compare 0 0).then _)
    simp
  · rfl
  · rfl
  · show _ = (compare 0 0).then (Ordering.then _ .eq)
    simp

instance transCmp_compareIdentifier : TransCmp compareIdentifier := by
  rw [compareIdentifier_eq]
  infer_instance

/-- A prerelease comes before none. -/
def prereleaseRank (identifiers : List Text) : Nat := if identifiers = [] then 1 else 0

theorem comparePrerelease_eq : comparePrerelease =
    compareLex (compareOn prereleaseRank) (compareLists compareIdentifier) := by
  funext as bs
  cases as <;> cases bs <;> rfl

instance transCmp_comparePrerelease : TransCmp comparePrerelease := by
  rw [comparePrerelease_eq]
  infer_instance

theorem order_eq : order =
    compareLex (compareOn major) (compareLex (compareOn minor) (compareLex (compareOn patch)
      (Ordering.byKey prerelease comparePrerelease))) := rfl

/-- The precedence of versions is a total preorder. -/
instance transCmp_order : TransCmp order := by
  rw [order_eq]
  infer_instance

/-! ## Precedence -/

theorem order_swap (v w : Version) : v.order w = (w.order v).swap := OrientedCmp.eq_swap

theorem atMost_iff {v w : Version} : v.atMost w = true ↔ (v.order w).isLE = true := by
  rw [atMost]
  cases v.order w <;> decide

/-- A version does not come after another if and only if the other does not come before it. -/
theorem atMost_iff_not_before {v w : Version} : v.atMost w = true ↔ w.before v = false := by
  rw [atMost, before, order_swap w]
  cases v.order w <;> decide

theorem atMost_total (v w : Version) : v.atMost w = true ∨ w.atMost v = true := by
  rw [atMost_iff, atMost_iff, order_swap w]
  cases v.order w <;> decide

theorem atMost_trans {u v w : Version} (h : u.atMost v = true) (h' : v.atMost w = true) :
    u.atMost w = true := by
  rw [atMost_iff] at h h' ⊢
  exact TransCmp.isLE_trans h h'

end Version

/-! ## Sorting -/

section Sorting

variable {α : Type} {le : α → α → Bool}

theorem insertSorted_eq (a : α) (as : List α) :
    insertSorted le a as = List.orderedInsert (fun a b => le a b = true) a as := by
  induction as with
  | nil => rfl
  | cons b as ih => rw [insertSorted, List.orderedInsert, ih]

theorem sortBy_eq (as : List α) :
    sortBy le as = List.insertionSort (fun a b => le a b = true) as := by
  induction as with
  | nil => rfl
  | cons a as ih =>
    rw [List.insertionSort_cons, ← ih, ← insertSorted_eq]
    rfl

/-- A list sorted by a total preorder is ascending. -/
theorem pairwise_sortBy (total : ∀ a b, le a b = true ∨ le b a = true)
    (trans : ∀ a b c, le a b = true → le b c = true → le a c = true) (as : List α) :
    (sortBy le as).Pairwise fun a b => le a b = true := by
  have : Std.Total fun a b => le a b = true := ⟨total⟩
  have : IsTrans α fun a b => le a b = true := ⟨trans⟩
  rw [sortBy_eq]
  exact List.pairwise_insertionSort _ as

/-- What an ascending list holds does not come after its last element. -/
theorem le_getLast? (refl : ∀ a, le a a = true) {as : List α}
    (ascending : as.Pairwise fun a b => le a b = true) {last : α} (h : as.getLast? = some last) :
    ∀ a ∈ as, le a last = true := by
  obtain ⟨init, rfl⟩ := List.getLast?_eq_some_iff.mp h
  intro a member
  rcases List.mem_append.mp member with before | same
  · exact (List.pairwise_append.mp ascending).2.2 a before last (.head _)
  · rw [List.mem_singleton.mp same]
    exact refl last

end Sorting

end TokenForge

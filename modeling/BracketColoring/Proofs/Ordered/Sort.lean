import BracketColoring.Ordered
import Mathlib.Order.Lattice

/-!
# Sorting

Sorting by insertion puts the elements of a list in another order: none is lost and none is new, and
under a total order each stands before those that are above it.
-/

namespace BracketColoring.Ordered

variable {α : Type} (le : α → α → Bool)

theorem insertDown_perm (x : α) (xs : List α) : (insertDown le x xs).Perm (x :: xs) := by
  induction xs with
  | nil => exact .refl _
  | cons y rest ih =>
    unfold insertDown
    split
    · exact .refl _
    · exact (ih.cons y).trans (.swap x y rest)

theorem foldl_insertDown_perm (xs acc : List α) :
    (xs.foldl (fun acc x => insertDown le x acc) acc).Perm (xs ++ acc) := by
  induction xs generalizing acc with
  | nil => exact .refl _
  | cons x rest ih =>
    rw [List.foldl_cons]
    have inserted : (rest ++ insertDown le x acc).Perm (rest ++ x :: acc) :=
      (insertDown_perm le x acc).append_left rest
    exact ((ih _).trans inserted).trans List.perm_middle

theorem sort_perm (xs : List α) : (sort le xs).Perm xs := by
  have inserted := foldl_insertDown_perm le xs []
  rw [List.append_nil] at inserted
  exact (List.reverse_perm _).trans inserted

section

variable {le} (total : ∀ a b, le a b = true ∨ le b a = true)
  (trans : ∀ a b c, le a b = true → le b c = true → le a c = true)

include total trans

theorem pairwise_insertDown (x : α) {xs : List α}
    (sorted : xs.Pairwise fun a b => le b a = true) :
    (insertDown le x xs).Pairwise fun a b => le b a = true := by
  induction xs with
  | nil => exact List.pairwise_singleton _ x
  | cons y rest ih =>
    obtain ⟨below, sortedRest⟩ := List.pairwise_cons.mp sorted
    unfold insertDown
    by_cases above : le y x = true
    · rw [if_pos above]
      refine List.pairwise_cons.mpr ⟨?_, sorted⟩
      intro z membership
      rcases List.mem_cons.mp membership with rfl | later
      · exact above
      · exact trans z y x (below z later) above
    · rw [if_neg above]
      refine List.pairwise_cons.mpr ⟨?_, ih sortedRest⟩
      intro z membership
      rcases List.mem_cons.mp ((insertDown_perm le x rest).mem_iff.mp membership) with rfl | later
      · exact (total y z).resolve_left above
      · exact below z later

theorem pairwise_sort (xs : List α) : (sort le xs).Pairwise fun a b => le a b = true := by
  have folded : ∀ acc : List α, (acc.Pairwise fun a b => le b a = true) →
      (xs.foldl (fun acc x => insertDown le x acc) acc).Pairwise fun a b => le b a = true := by
    induction xs with
    | nil => exact fun _ sorted => sorted
    | cons x rest ih =>
      intro acc sorted
      exact ih _ (pairwise_insertDown total trans x sorted)
  exact List.pairwise_reverse.mpr (folded [] .nil)

end

/-- What is sorted by a key has its keys in order. -/
theorem pairwise_sort_key {β : Type} [LinearOrder β] (key : α → β) (xs : List α) :
    (sort (fun a b => decide (key a ≤ key b)) xs).Pairwise fun a b => key a ≤ key b := by
  have sorted : (sort (fun a b => decide (key a ≤ key b)) xs).Pairwise fun a b =>
      decide (key a ≤ key b) = true := by
    refine pairwise_sort ?_ ?_ xs
    · intro a b
      exact (le_total (key a) (key b)).imp decide_eq_true decide_eq_true
    · intro a b c first second
      exact decide_eq_true (le_trans (of_decide_eq_true first) (of_decide_eq_true second))
  exact sorted.imp of_decide_eq_true

end BracketColoring.Ordered

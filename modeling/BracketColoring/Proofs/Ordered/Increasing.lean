import BracketColoring.Ordered
import Mathlib.Data.List.Sort

/-!
# Lists in increasing order

The set of some elements is a strictly increasing list, and there is only one such list; so adding
elements that a set has already changes nothing. In an increasing list, looking for an element by
halves finds it whenever it is there.
-/

namespace BracketColoring.Ordered

variable {α : Type} [LinearOrder α]

theorem mem_insert {x y : α} {set : List α} : y ∈ insert x set ↔ y = x ∨ y ∈ set := by
  induction set with
  | nil => simp [insert]
  | cons z rest ih =>
    unfold insert
    by_cases before : x < z
    · simp [before]
    · by_cases same : x = z
      · subst same
        simp
      · simp only [if_neg before, if_neg same, List.mem_cons, ih]
        exact or_left_comm

theorem pairwise_insert (x : α) {set : List α} (increasing : set.Pairwise (· < ·)) :
    (insert x set).Pairwise (· < ·) := by
  induction set with
  | nil => exact List.pairwise_singleton _ x
  | cons y rest ih =>
    obtain ⟨above, later⟩ := List.pairwise_cons.mp increasing
    unfold insert
    by_cases before : x < y
    · rw [if_pos before]
      refine List.pairwise_cons.mpr ⟨?_, increasing⟩
      intro z membership
      rcases List.mem_cons.mp membership with rfl | inRest
      · exact before
      · exact before.trans (above z inRest)
    · by_cases same : x = y
      · rw [if_neg before, if_pos same]
        exact increasing
      · rw [if_neg before, if_neg same]
        refine List.pairwise_cons.mpr ⟨?_, ih later⟩
        intro z membership
        rcases mem_insert.mp membership with rfl | inRest
        · exact lt_of_le_of_ne (not_lt.mp before) (Ne.symm same)
        · exact above z inRest

theorem mem_insertAll {xs set : List α} {y : α} : y ∈ insertAll xs set ↔ y ∈ xs ∨ y ∈ set := by
  induction xs generalizing set with
  | nil => simp [insertAll]
  | cons x rest ih =>
    have step : insertAll (x :: rest) set = insertAll rest (insert x set) := rfl
    rw [step, ih, mem_insert, List.mem_cons, or_assoc]
    exact or_left_comm

theorem pairwise_insertAll (xs : List α) {set : List α} (increasing : set.Pairwise (· < ·)) :
    (insertAll xs set).Pairwise (· < ·) := by
  induction xs generalizing set with
  | nil => exact increasing
  | cons x rest ih => exact ih (pairwise_insert x increasing)

@[simp] theorem mem_distinct {xs : List α} {x : α} : x ∈ distinct xs ↔ x ∈ xs := by
  simp [distinct, mem_insertAll]

theorem pairwise_distinct (xs : List α) : (distinct xs).Pairwise (· < ·) :=
  pairwise_insertAll xs .nil

/-- The set of the elements of a set and of others that it has already is that set. -/
theorem distinct_append_of_subset {set xs : List α} (increasing : set.Pairwise (· < ·))
    (inside : ∀ x ∈ xs, x ∈ set) : distinct (set ++ xs) = set := by
  apply (pairwise_distinct (set ++ xs)).eq_of_mem_iff increasing
  intro x
  rw [mem_distinct, List.mem_append]
  exact ⟨fun either => either.elim id (inside x), .inl⟩

theorem distinct_concat (xs : List α) (x : α) : distinct (xs ++ [x]) = insert x (distinct xs) := by
  simp [distinct, insertAll]

/-- Putting an entry into a table changes the value of its key and no other. -/
theorem insertEntry_map {β : Type} (key : α) (value : β) (f : α → β) {keys : List α}
    (increasing : keys.Pairwise (· < ·)) :
    insertEntry key value (keys.map fun k => (k, f k)) =
      (insert key keys).map fun k => (k, if k = key then value else f k) := by
  have others : ∀ rest : List α, (∀ k ∈ rest, key < k) →
      rest.map (fun k => (k, f k)) = rest.map fun k => (k, if k = key then value else f k) := by
    intro rest above
    refine List.map_congr_left fun k membership => ?_
    rw [if_neg (above k membership).ne']
  induction keys with
  | nil => simp [insertEntry, insert]
  | cons y rest ih =>
    obtain ⟨above, later⟩ := List.pairwise_cons.mp increasing
    rcases lt_trichotomy key y with before | rfl | behind
    · have all := others (y :: rest) fun k membership => by
        rcases List.mem_cons.mp membership with rfl | inRest
        · exact before
        · exact before.trans (above k inRest)
      simp only [List.map_cons] at all
      simp [insertEntry, insert, before, all]
    · simp [insertEntry, insert, others rest above]
    · simp [insertEntry, insert, behind.not_gt, behind.ne, behind.ne', ih later]

omit [LinearOrder α] in
theorem take_append_of_drop_eq {xs upper : List α} {n : Nat} (split : xs.drop n = upper) :
    xs.take n ++ upper = xs := by
  rw [← split, List.take_append_drop]

theorem search_eq_true_iff {x : α} {xs : List α} (sorted : xs.Pairwise (· ≤ ·)) :
    search x xs = true ↔ x ∈ xs := by
  fun_induction search x xs with
  | case1 xs split =>
    have short := congrArg List.length split
    have empty : xs = [] := List.eq_nil_of_length_eq_zero (by simp at short; omega)
    simp [empty]
  | case2 xs upper split =>
    have inUpper : x ∈ xs.drop (xs.length / 2) := by simp [split]
    simp [List.mem_of_mem_drop inUpper]
  | case3 xs y upper split apart below ih =>
    have parts := take_append_of_drop_eq split
    rw [← parts] at sorted
    obtain ⟨lowerSorted, upperSorted, -⟩ := List.pairwise_append.mp sorted
    have outside : x ∉ y :: upper := by
      intro membership
      rcases List.mem_cons.mp membership with same | inUpper
      · exact apart same
      · exact absurd below (not_lt.mpr ((List.pairwise_cons.mp upperSorted).1 x inUpper))
    rw [ih lowerSorted]
    conv_rhs => rw [← parts]
    rw [List.mem_append, or_iff_left outside]
  | case4 xs y upper split apart above ih =>
    have parts := take_append_of_drop_eq split
    rw [← parts] at sorted
    obtain ⟨-, upperSorted, across⟩ := List.pairwise_append.mp sorted
    have outside : x ∉ xs.take (xs.length / 2) := by
      intro membership
      have le : x ≤ y := across x membership y List.mem_cons_self
      exact apart (le_antisymm le (not_lt.mp above))
    rw [ih (List.pairwise_cons.mp upperSorted).2]
    conv_rhs => rw [← parts]
    rw [List.mem_append, or_iff_right outside, List.mem_cons, or_iff_right apart]

end BracketColoring.Ordered

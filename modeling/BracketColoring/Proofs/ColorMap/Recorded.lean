import BracketColoring.ColorMap
import BracketColoring.Proofs.Ordered.Increasing
import BracketColoring.Proofs.Settings.Colors
import Mathlib.Data.List.Induction

/-!
# Recorded colors

A color map that is kept up to date, by adding each range to the list of its color when its
occurrence is recorded, is what grouping all recorded ranges at once gives (`recordAll_eq_group`).
-/

namespace BracketColoring

namespace ColorMap

/-- Groups painted ranges by color. -/
def group (paint : List (Color × Range)) : ColorMap :=
  ⟨(Ordered.distinct (paint.map (·.1))).map fun c => (c, rangesOf paint c)⟩

/-- The map lists the ranges of recorded occurrences by color, in the order of recording. -/
structure Groups (m : ColorMap) (recorded : List ColoredOccurrence) : Prop where
  increasing : m.colors.Pairwise (· < ·)
  entries : ∀ color ranges, (color, ranges) ∈ m.entries ↔ ranges ≠ [] ∧
    ranges = (recorded.filter fun c => c.color = color).map (·.occurrence.range)

variable {paint : List (Color × Range)}

theorem rangesOf_concat (paint : List (Color × Range)) (c color : Color) (r : Range) :
    rangesOf (paint ++ [(c, r)]) color =
      if color = c then rangesOf paint c ++ [r] else rangesOf paint color := by
  by_cases same : color = c
  · subst same
    simp [rangesOf]
  · simp [rangesOf, same, Ne.symm same]

theorem ranges_group (paint : List (Color × Range)) (c : Color) :
    (group paint).ranges c = rangesOf paint c := by
  unfold ranges get? group
  rw [List.find?_map, Option.map_map]
  cases found : (Ordered.distinct (paint.map (·.1))).find? fun k => decide (k = c) with
  | none =>
    have absent := List.find?_eq_none.mp found
    have nothing : rangesOf paint c = [] := by
      rw [rangesOf, List.map_eq_nil_iff, List.filter_eq_nil_iff]
      intro p membership
      exact absent p.1 (Ordered.mem_distinct.mpr (List.mem_map_of_mem membership))
    simp [Function.comp_def, found, nothing]
  | some k =>
    have same : k = c := by simpa using List.find?_some found
    simp [Function.comp_def, found, same]

theorem group_concat (paint : List (Color × Range)) (c : Color) (r : Range) :
    group (paint ++ [(c, r)]) = (group paint).record c r := by
  have keys : Ordered.distinct ((paint ++ [(c, r)]).map (·.1)) =
      Ordered.insert c (Ordered.distinct (paint.map (·.1))) := by
    rw [List.map_append]
    exact Ordered.distinct_concat _ c
  have added := Ordered.insertEntry_map c (rangesOf paint c ++ [r]) (rangesOf paint)
    (Ordered.pairwise_distinct (paint.map (·.1)))
  rw [record, ranges_group]
  simp only [group, keys, added, rangesOf_concat]

theorem groups_group (recorded : List ColoredOccurrence) :
    (group (recorded.map fun c => (c.color, c.occurrence.range))).Groups recorded := by
  have lists : ∀ color, rangesOf (recorded.map fun c => (c.color, c.occurrence.range)) color =
      (recorded.filter fun c => c.color = color).map (·.occurrence.range) := by
    intro color
    simp [rangesOf, List.filter_map, Function.comp_def]
  constructor
  case increasing =>
    simpa [colors, group, Function.comp_def] using Ordered.pairwise_distinct _
  case entries =>
    intro color ranges
    simp only [group, List.mem_map, Prod.mk.injEq, Ordered.mem_distinct, lists]
    constructor
    · rintro ⟨_, ⟨_, ⟨c, membership, rfl⟩, rfl⟩, rfl, rfl⟩
      refine ⟨?_, rfl⟩
      simpa using ⟨c, membership, rfl⟩
    · rintro ⟨nonempty, rfl⟩
      obtain ⟨c, membership⟩ := List.exists_mem_of_ne_nil _ (mt List.map_eq_nil_iff.mpr nonempty)
      obtain ⟨listed, same⟩ := List.mem_filter.mp membership
      exact ⟨color, ⟨_, ⟨c, listed, rfl⟩, of_decide_eq_true same⟩, rfl, rfl⟩

theorem recordAll_concat (m : ColorMap) (recorded : List ColoredOccurrence)
    (c : ColoredOccurrence) :
    m.recordAll (recorded ++ [c]) = (m.recordAll recorded).record c.color c.occurrence.range := by
  simp [recordAll]

theorem recordAll_eq_group (recorded : List ColoredOccurrence) :
    recordAll ⟨[]⟩ recorded = group (recorded.map fun c => (c.color, c.occurrence.range)) := by
  induction recorded using List.reverseRecOn with
  | nil => rfl
  | append_singleton recorded c ih =>
    rw [recordAll_concat, ih, ← group_concat, List.map_append]
    rfl

theorem groups_recordAll (recorded : List ColoredOccurrence) :
    (recordAll ⟨[]⟩ recorded).Groups recorded := by
  rw [recordAll_eq_group]
  exact groups_group recorded

end ColorMap

end BracketColoring

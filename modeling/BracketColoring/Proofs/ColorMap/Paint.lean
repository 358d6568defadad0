import BracketColoring.LineCache
import BracketColoring.Proofs.ColorMap.Recorded
import BracketColoring.Proofs.Ordered.Sort
import BracketColoring.Proofs.Position.Order
import BracketColoring.Proofs.Settings.Colors
import Mathlib.Data.List.Perm.Basic

/-!
# The map of painted ranges

A color map is made from ranges that are each painted with one color. Its lists hold what was
painted and nothing else, each in order; and when no range is painted twice, the color of a range is
found by looking through the lists.
-/

namespace BracketColoring

namespace ColorMap

variable {colors : List Color} {paint : List (Color × Range)} {c : Color} {r : Range}

theorem mem_rangesOf : r ∈ rangesOf paint c ↔ (c, r) ∈ paint := by
  simp only [rangesOf, List.mem_map, List.mem_filter, decide_eq_true_eq]
  constructor
  · rintro ⟨⟨c', r'⟩, ⟨membership, rfl⟩, rfl⟩
    exact membership
  · intro membership
    exact ⟨(c, r), ⟨membership, rfl⟩, rfl⟩

theorem inOrder_perm (rs : List Range) : (inOrder rs).Perm rs := Ordered.sort_perm _ rs

theorem pairwise_inOrder (rs : List Range) : (inOrder rs).Pairwise (· ≤ ·) :=
  Ordered.pairwise_sort_key id rs

theorem colors_ofPaint : (ofPaint colors paint).colors =
    Ordered.distinct (colors ++ paint.map (·.1)) := by
  simp [ColorMap.colors, ofPaint, Function.comp_def]

theorem mem_entries_ofPaint {e : Color × List Range} :
    e ∈ (ofPaint colors paint).entries ↔
      e.1 ∈ colors ++ paint.map (·.1) ∧ e.2 = inOrder (rangesOf paint e.1) := by
  simp only [ofPaint, List.mem_map, Ordered.mem_distinct]
  constructor
  · rintro ⟨c, membership, rfl⟩
    exact ⟨membership, rfl⟩
  · rintro ⟨membership, listed⟩
    exact ⟨e.1, membership, Prod.ext rfl listed.symm⟩

/-- An entry of the map lists what was painted in its color. -/
theorem mem_of_mem_entries {e : Color × List Range} (entry : e ∈ (ofPaint colors paint).entries) :
    r ∈ e.2 ↔ (e.1, r) ∈ paint := by
  rw [(mem_entries_ofPaint.mp entry).2, (inOrder_perm _).mem_iff, mem_rangesOf]

theorem exists_entry (colors : List Color) (painted : (c, r) ∈ paint) :
    ∃ e ∈ (ofPaint colors paint).entries, e.1 = c ∧ r ∈ e.2 := by
  have entry : (c, inOrder (rangesOf paint c)) ∈ (ofPaint colors paint).entries := by
    refine mem_entries_ofPaint.mpr ⟨?_, rfl⟩
    exact List.mem_append_right _ (List.mem_map_of_mem painted)
  exact ⟨_, entry, rfl, (mem_of_mem_entries entry).mpr painted⟩

theorem search_entry {e : Color × List Range} (entry : e ∈ (ofPaint colors paint).entries) :
    Ordered.search r e.2 = true ↔ (e.1, r) ∈ paint := by
  have sorted : e.2.Pairwise (· ≤ ·) := by
    rw [(mem_entries_ofPaint.mp entry).2]
    exact pairwise_inOrder _
  rw [Ordered.search_eq_true_iff sorted, mem_of_mem_entries entry]

theorem mem_ranges_ofPaint : r ∈ (ofPaint colors paint).ranges c ↔ (c, r) ∈ paint := by
  unfold ranges get?
  cases found : (ofPaint colors paint).entries.find? fun e => decide (e.1 = c) with
  | none =>
    have absent := List.find?_eq_none.mp found
    constructor
    · intro membership
      simp at membership
    · intro painted
      obtain ⟨e, entry, same, -⟩ := exists_entry colors painted
      exact absurd (decide_eq_true same) (absent e entry)
  | some e =>
    have same : e.1 = c := by simpa using List.find?_some found
    subst same
    simpa using mem_of_mem_entries (List.mem_of_find?_eq_some found)

/-- A range that was painted once has the color that it was painted with. -/
theorem colorOf?_ofPaint (distinct : (paint.map (·.2)).Nodup) (painted : (c, r) ∈ paint) :
    (ofPaint colors paint).colorOf? r = some c := by
  obtain ⟨e, entry, same, listed⟩ := exists_entry colors painted
  have hit : Ordered.search r e.2 = true := (search_entry entry).mpr (same ▸ painted)
  cases found : (ofPaint colors paint).entries.find? fun e => Ordered.search r e.2 with
  | none => exact absurd hit (List.find?_eq_none.mp found e entry)
  | some e' =>
    have hit' : Ordered.search r e'.2 = true := by simpa using List.find?_some found
    have painted' := (search_entry (List.mem_of_find?_eq_some found)).mp hit'
    have equal := List.inj_on_of_nodup_map distinct painted' painted rfl
    rw [colorOf?, found, Option.map_some, (Prod.mk.inj equal).1]

theorem colorOf?_ofPaint_eq_none (unpainted : r ∉ paint.map (·.2)) :
    (ofPaint colors paint).colorOf? r = none := by
  rw [colorOf?, Option.map_eq_none_iff, List.find?_eq_none]
  intro e entry hit
  exact unpainted (List.mem_map_of_mem (f := Prod.snd) ((search_entry entry).mp hit))

theorem pairwise_entry (distinct : (paint.map (·.2)).Nodup) {e : Color × List Range}
    (entry : e ∈ (ofPaint colors paint).entries) : e.2.Pairwise (· < ·) := by
  have apart : (rangesOf paint e.1).Nodup := distinct.sublist (List.filter_sublist.map _)
  rw [(mem_entries_ofPaint.mp entry).2]
  have sorted := pairwise_inOrder (rangesOf paint e.1)
  apply (sorted.and ((inOrder_perm _).nodup_iff.mpr apart)).imp
  intro a b ordered
  exact lt_of_le_of_ne ordered.1 ordered.2

theorem entry_unique (distinct : (paint.map (·.2)).Nodup) {e e' : Color × List Range}
    (entry : e ∈ (ofPaint colors paint).entries) (entry' : e' ∈ (ofPaint colors paint).entries)
    (listed : r ∈ e.2) (listed' : r ∈ e'.2) : e = e' := by
  have painted := (mem_of_mem_entries entry).mp listed
  have painted' := (mem_of_mem_entries entry').mp listed'
  have same : e.1 = e'.1 :=
    (Prod.mk.inj (List.inj_on_of_nodup_map distinct painted painted' rfl)).1
  refine Prod.ext same ?_
  rw [(mem_entries_ofPaint.mp entry).2, (mem_entries_ofPaint.mp entry').2, same]

/-! ## Nothing is lost -/

/-- Painted ranges are put apart by their colors. -/
theorem flatMap_filter_perm {keys : List Color} (apart : keys.Nodup)
    (inside : ∀ p ∈ paint, p.1 ∈ keys) :
    (keys.flatMap fun c => paint.filter fun p => p.1 = c).Perm paint := by
  induction keys generalizing paint with
  | nil =>
    have empty : paint = [] := List.eq_nil_iff_forall_not_mem.mpr fun p membership =>
      List.not_mem_nil (inside p membership)
    simp [empty]
  | cons key rest ih =>
    obtain ⟨fresh, apart⟩ := List.nodup_cons.mp apart
    let others := paint.filter fun p => !decide (p.1 = key)
    have later : (rest.flatMap fun c => others.filter fun p => p.1 = c).Perm others := by
      apply ih apart
      intro p membership
      obtain ⟨membership, other⟩ := List.mem_filter.mp membership
      exact (List.mem_cons.mp (inside p membership)).resolve_left (by simpa using other)
    have same : (rest.flatMap fun c => others.filter fun p => p.1 = c) =
        rest.flatMap fun c => paint.filter fun p => p.1 = c := by
      apply List.flatMap_congr
      intro c membership
      have other : c ≠ key := fun equal => fresh (equal ▸ membership)
      simp only [others, List.filter_filter]
      apply List.filter_congr
      intro p _
      by_cases here : p.1 = c
      · simp [here, other]
      · simp [here]
    rw [List.flatMap_cons, ← same]
    have split : (paint.filter (fun p => decide (p.1 = key)) ++ others).Perm paint :=
      List.filter_append_perm _ paint
    exact (later.append_left _).trans split

theorem flatMap_rangesOf_perm {keys : List Color} (apart : keys.Nodup)
    (inside : ∀ p ∈ paint, p.1 ∈ keys) :
    (keys.flatMap (rangesOf paint)).Perm (paint.map (·.2)) := by
  have grouped := (flatMap_filter_perm apart inside).map (·.2)
  rwa [List.map_flatMap] at grouped

theorem nodup_distinct (keys : List Color) : (Ordered.distinct keys).Nodup :=
  (Ordered.pairwise_distinct keys).imp fun below => ne_of_lt below

theorem mem_keys (colors : List Color) {p : Color × Range} (membership : p ∈ paint) :
    p.1 ∈ Ordered.distinct (colors ++ paint.map (·.1)) := by
  rw [Ordered.mem_distinct]
  exact List.mem_append_right _ (List.mem_map_of_mem membership)

theorem ranges_perm :
    ((ofPaint colors paint).entries.flatMap (·.2)).Perm (paint.map (·.2)) := by
  have sorted : ∀ keys : List Color, (keys.flatMap fun c => inOrder (rangesOf paint c)).Perm
      (keys.flatMap (rangesOf paint)) := fun keys =>
    .flatMap_left keys fun c _ => inOrder_perm _
  rw [ofPaint, List.flatMap_map]
  exact (sorted _).trans
    (flatMap_rangesOf_perm (nodup_distinct _) fun _ membership => mem_keys colors membership)

theorem rangeCount_eq (m : ColorMap) : m.rangeCount = (m.entries.flatMap (·.2)).length := by
  rw [rangeCount, List.length_flatMap]
  rfl

/-! ## The order of painting -/

theorem inOrder_congr {rs rs' : List Range} (same : rs.Perm rs') : inOrder rs = inOrder rs' :=
  ((inOrder_perm rs).trans (same.trans (inOrder_perm rs').symm)).eq_of_pairwise
    (fun _ _ _ _ => le_antisymm) (pairwise_inOrder rs) (pairwise_inOrder rs')

/-- The map does not depend on the order in which the ranges were painted. -/
theorem ofPaint_congr (colors : List Color) {paint' : List (Color × Range)}
    (same : paint.Perm paint') : ofPaint colors paint = ofPaint colors paint' := by
  have keys : Ordered.distinct (colors ++ paint.map (·.1)) =
      Ordered.distinct (colors ++ paint'.map (·.1)) := by
    apply (Ordered.pairwise_distinct _).eq_of_mem_iff (Ordered.pairwise_distinct _)
    intro c
    simp only [Ordered.mem_distinct]
    exact ((same.map (·.1)).append_left colors).mem_iff
  have ranges : ∀ c, inOrder (rangesOf paint c) = inOrder (rangesOf paint' c) := fun c =>
    inOrder_congr ((same.filter _).map _)
  simp only [ofPaint, keys, ranges]

theorem map_rangesOf (paint : List (Color × Range)) (c : Color) :
    (rangesOf paint c).map (fun r => (c, r)) = paint.filter fun p => p.1 = c := by
  have same : ∀ p ∈ paint.filter fun p => p.1 = c, (c, p.2) = id p := by
    intro p membership
    obtain ⟨-, color⟩ := List.mem_filter.mp membership
    exact Prod.ext (of_decide_eq_true color).symm rfl
  rw [rangesOf, List.map_map]
  exact (List.map_congr_left same).trans (List.map_id _)

/-- Grouping by color loses nothing. -/
theorem group_perm (paint : List (Color × Range)) :
    ((group paint).entries.flatMap fun e => e.2.map fun r => (e.1, r)).Perm paint := by
  rw [group, List.flatMap_map]
  simp only [map_rangesOf]
  apply flatMap_filter_perm (nodup_distinct _)
  intro p membership
  exact mem_keys [] membership

end ColorMap

/-- The ranges that are painted are those of the recorded occurrences, where the map of each line was
kept up to date. -/
theorem LineCache.painted_perm (swept : List (Range × Color)) {c : LineCache}
    (upToDate : ∀ l ∈ c.lines, l.paint = .recordAll ⟨[]⟩ l.occurrences) :
    (c.painted swept).Perm (c.occurrences.map fun o =>
      (finalColor swept o.color o.occurrence.range, o.occurrence.range)) := by
  rw [painted, occurrences, List.map_flatMap]
  apply List.Perm.flatMap_left
  intro l membership
  rw [upToDate l membership, ColorMap.recordAll_eq_group]
  have grouped := (ColorMap.group_perm (l.occurrences.map fun o =>
    (o.color, o.occurrence.range))).map fun p => (finalColor swept p.1 p.2, p.2)
  simpa [List.map_flatMap, Function.comp_def] using grouped

end BracketColoring

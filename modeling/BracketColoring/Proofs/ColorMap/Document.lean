import BracketColoring.Proofs.ColorMap.Paint
import BracketColoring.Proofs.Matching.Colored
import BracketColoring.Proofs.PairIndex.Classified

/-!
# The color map of a document

The color map and the pair index of a document are made from the same lines in different ways: the
map repaints the openings that are left on the stack, and the index follows closings to their
openings. Both give every bracket one color, and the same one (`agrees`); the map has the colors of
the settings, and its lists hold each recorded bracket once (`partitions`, `lists`).
-/

namespace BracketColoring

namespace ColorMap

/-- Every bracket of the index has the color that the index gives it, and nothing else has one. -/
structure Agrees (m : ColorMap) (x : PairIndex) : Prop where
  pairs : ∀ p ∈ x.pairs, m.colorOf? p.opening = some p.color ∧ m.colorOf? p.closing = some p.color
  orphans : ∀ b ∈ x.orphans, m.colorOf? b.range = some b.color
  nothing : ∀ r, r ∉ x.ranges → m.colorOf? r = none

/-- The map has the colors of the settings, its lists are in order, and no range is in two lists. -/
structure Partitions (m : ColorMap) (s : Settings) : Prop where
  colors : m.colors = s.colors
  increasing : ∀ e ∈ m.entries, e.2.Pairwise (· < ·)
  apart : ∀ e ∈ m.entries, ∀ e' ∈ m.entries, ∀ r ∈ e.2, r ∈ e'.2 → e = e'

/-- The map lists the recorded brackets once each: those that wait in the color of their pair for
lone brackets, the others in the color that was recorded. -/
structure Lists (m : ColorMap) (s : Settings) (recorded : List ColoredOccurrence)
    (stack : MatchStack) : Prop where
  ranges : (m.entries.flatMap (·.2)).Perm (recorded.map (·.occurrence.range))
  distinct : (m.entries.flatMap (·.2)).Nodup
  count : m.rangeCount = recorded.length
  waiting : ∀ e ∈ stack.entries, ∃ c ∈ recorded, c.status = .opened ∧
    c.occurrence.pair = e.pair ∧ c.occurrence.range = e.opening ∧
    ∃ d, s.pair? e.pair = some d ∧ e.opening ∈ m.ranges d.orphan
  others : ∀ c ∈ recorded, (∀ e ∈ stack.entries, e.opening ≠ c.occurrence.range) →
    c.occurrence.range ∈ m.ranges c.color

/-- The colors of the openings that still wait. -/
def sweep (s : Settings) (stack : MatchStack) : List (Range × Color) :=
  (PairIndex.withPairs s stack.entries).map fun (e, d) => (e.opening, d.orphan)

/-- The color of a recorded bracket in the end. -/
def finalColor (s : Settings) (stack : MatchStack) (c : ColoredOccurrence) : Color :=
  LineCache.finalColor (sweep s stack) c.color c.occurrence.range

/-- The ranges of recorded brackets with the colors that they have in the end. -/
def finalPaint (s : Settings) (recorded : List ColoredOccurrence) (stack : MatchStack) :
    List (Color × Range) :=
  recorded.map fun c => (finalColor s stack c, c.occurrence.range)

/-- The map of what a run recorded and of the stack that it left. -/
def ofRun (s : Settings) (recorded : List ColoredOccurrence) (stack : MatchStack) : ColorMap :=
  ofPaint s.colors (finalPaint s recorded stack)

theorem mem_sweep {s : Settings} {stack : MatchStack} {w : Range × Color} :
    w ∈ sweep s stack ↔
      ∃ e ∈ stack.entries, ∃ d, s.pair? e.pair = some d ∧ w = (e.opening, d.orphan) := by
  simp only [sweep, PairIndex.withPairs, List.mem_map, List.mem_filterMap, Option.map_eq_some_iff]
  constructor
  · rintro ⟨⟨e, d⟩, ⟨e', waiting, d', present, equal⟩, rfl⟩
    cases equal
    exact ⟨e, waiting, d, present, rfl⟩
  · rintro ⟨e, waiting, d, present, rfl⟩
    exact ⟨(e, d), ⟨e, waiting, d, present, rfl⟩, rfl⟩

theorem ranges_finalPaint {s : Settings} {recorded : List ColoredOccurrence} {stack : MatchStack} :
    (finalPaint s recorded stack).map (·.2) = recorded.map (·.occurrence.range) := by
  simp [finalPaint, Function.comp_def]

end ColorMap

/-! ## Colors in the end -/

section

variable {s : Settings} {recorded : List ColoredOccurrence} {stack : MatchStack}

theorem eq_of_range (distinct : (recorded.map (·.occurrence.range)).Nodup)
    {c c' : ColoredOccurrence} (first : c ∈ recorded) (second : c' ∈ recorded)
    (same : c.occurrence.range = c'.occurrence.range) : c = c' :=
  List.inj_on_of_nodup_map distinct first second same

theorem openings_eq (recorded : List ColoredOccurrence) :
    recorded.filterMap (·.opened?) =
      (recorded.filter fun c => c.status = .opened).map (·.occurrence.range) := by
  induction recorded with
  | nil => rfl
  | cons c rest ih =>
    by_cases status : c.status = .opened
    · have here : c.opened? = some c.occurrence.range := by
        simp [ColoredOccurrence.opened?, status]
      simp [here, status, ih]
    · have here : c.opened? = none := by
        unfold ColoredOccurrence.opened?
        split
        · next opened => exact absurd opened status
        · rfl
      simp [here, status, ih]

theorem finalColor_of_settled {c : ColoredOccurrence}
    (settled : ∀ e ∈ stack.entries, e.opening ≠ c.occurrence.range) :
    ColorMap.finalColor s stack c = c.color := by
  have absent : (ColorMap.sweep s stack).reverse.find?
      (fun w => decide (w.1 = c.occurrence.range)) = none := by
    rw [List.find?_eq_none]
    intro w membership
    obtain ⟨e, waiting, d, -, rfl⟩ := ColorMap.mem_sweep.mp (List.mem_reverse.mp membership)
    simpa using settled e waiting
  rw [ColorMap.finalColor, LineCache.finalColor, absent]
  rfl

namespace Accounted

variable (accounted : Accounted s recorded stack)
  (distinct : (recorded.map (·.occurrence.range)).Nodup)

include accounted distinct

/-- Two waiting openings at one place are of one pair. -/
theorem pair_of_opening {e e' : StackEntry} (first : e ∈ stack.entries)
    (second : e' ∈ stack.entries) (same : e.opening = e'.opening) : e.pair = e'.pair := by
  obtain ⟨c, membership, -, pair, place⟩ := accounted.waiting e first
  obtain ⟨c', membership', -, pair', place'⟩ := accounted.waiting e' second
  have equal : c = c' := eq_of_range distinct membership membership'
    (place.trans (same.trans place'.symm))
  rw [← pair, ← pair', equal]

theorem finalColor_of_waiting {e : StackEntry} (waiting : e ∈ stack.entries) {d : PairDefinition}
    (known : s.pair? e.pair = some d) {c : ColoredOccurrence}
    (place : e.opening = c.occurrence.range) :
    ColorMap.finalColor s stack c = d.orphan := by
  have listed : (e.opening, d.orphan) ∈ ColorMap.sweep s stack :=
    ColorMap.mem_sweep.mpr ⟨e, waiting, d, known, rfl⟩
  cases found : (ColorMap.sweep s stack).reverse.find?
      fun w => decide (w.1 = c.occurrence.range) with
  | none =>
    have miss := List.find?_eq_none.mp found _ (List.mem_reverse.mpr listed)
    exact absurd (by simpa using place) miss
  | some w =>
    have member := List.mem_reverse.mp (List.mem_of_find?_eq_some found)
    obtain ⟨e', waiting', d', known', rfl⟩ := ColorMap.mem_sweep.mp member
    have hit : e'.opening = c.occurrence.range := by simpa using List.find?_some found
    have pair := accounted.pair_of_opening distinct waiting' waiting (hit.trans place.symm)
    rw [pair, known] at known'
    cases known'
    rw [ColorMap.finalColor, LineCache.finalColor, found]
    rfl

/-- The opening of a matched closing does not wait any more. -/
theorem settled_of_matched {c : ColoredOccurrence} (membership : c ∈ recorded) {r : Range}
    (matched : c.status = .matched r) : ∀ e ∈ stack.entries, e.opening ≠ r := by
  intro e waiting same
  -- Every opening stands once in the balance, either with its closing or on the stack.
  have partner : r ∈ recorded.filterMap (·.partner?) :=
    List.mem_filterMap.mpr ⟨c, membership, by simp [ColoredOccurrence.partner?, matched]⟩
  have opened : (recorded.filterMap (·.opened?)).Nodup := by
    rw [openings_eq]
    exact distinct.sublist (List.filter_sublist.map _)
  have both := accounted.balance.nodup_iff.mp opened
  have inStack : r ∈ stack.entries.map (·.opening) := same ▸ List.mem_map_of_mem waiting
  exact (List.disjoint_of_nodup_append both) partner inStack

/-- Only openings wait. -/
theorem settled_of_not_opened {c : ColoredOccurrence} (membership : c ∈ recorded)
    (status : c.status ≠ .opened) : ∀ e ∈ stack.entries, e.opening ≠ c.occurrence.range := by
  intro e waiting same
  obtain ⟨c', membership', opened, -, place⟩ := accounted.waiting e waiting
  have equal : c' = c := eq_of_range distinct membership' membership (place.trans same)
  exact status (equal ▸ opened)

end Accounted

theorem Colored.finalColor_mem (colored : Colored s recorded stack) {c : ColoredOccurrence}
    (membership : c ∈ recorded) : ColorMap.finalColor s stack c ∈ s.colors := by
  unfold ColorMap.finalColor LineCache.finalColor
  cases found : (ColorMap.sweep s stack).reverse.find?
      fun w => decide (w.1 = c.occurrence.range) with
  | none => exact colored.configured c membership
  | some w =>
    have member := List.mem_reverse.mp (List.mem_of_find?_eq_some found)
    obtain ⟨e, -, d, known, rfl⟩ := ColorMap.mem_sweep.mp member
    exact Settings.mem_colors_of_pair? known d.orphan_mem

end

/-! ## The map of a run -/

namespace ColorMap

variable {s : Settings} {recorded : List ColoredOccurrence} {stack : MatchStack}

theorem mem_finalPaint (s : Settings) (stack : MatchStack) {c : ColoredOccurrence}
    (membership : c ∈ recorded) :
    (finalColor s stack c, c.occurrence.range) ∈ finalPaint s recorded stack :=
  List.mem_map_of_mem membership

theorem partitions_ofRun (colored : Colored s recorded stack)
    (distinct : (recorded.map (·.occurrence.range)).Nodup) :
    (ofRun s recorded stack).Partitions s := by
  rw [← ranges_finalPaint (s := s)] at distinct
  constructor
  case colors =>
    rw [ofRun, colors_ofPaint]
    apply Ordered.distinct_append_of_subset s.pairwise_colors
    intro color membership
    obtain ⟨p, painted, rfl⟩ := List.mem_map.mp membership
    obtain ⟨c, listed, rfl⟩ := List.mem_map.mp painted
    exact colored.finalColor_mem listed
  case increasing => exact fun e entry => pairwise_entry distinct entry
  case apart =>
    intro e entry e' entry' r listed listed'
    exact entry_unique distinct entry entry' listed listed'

theorem lists_ofRun (accounted : Accounted s recorded stack)
    (known : ∀ c ∈ recorded, s.Knows c.occurrence.pair)
    (distinct : (recorded.map (·.occurrence.range)).Nodup) :
    (ofRun s recorded stack).Lists s recorded stack := by
  have ranges : ((ofRun s recorded stack).entries.flatMap (·.2)).Perm
      (recorded.map (·.occurrence.range)) := by
    rw [← ranges_finalPaint (s := s)]
    exact ranges_perm
  constructor
  case ranges => exact ranges
  case distinct => exact ranges.nodup_iff.mpr distinct
  case count => rw [rangeCount_eq, ranges.length_eq, List.length_map]
  case waiting =>
    intro e waiting
    obtain ⟨c, membership, status, pair, place⟩ := accounted.waiting e waiting
    obtain ⟨d, present, -⟩ := known c membership
    rw [pair] at present
    refine ⟨c, membership, status, pair, place, d, present, ?_⟩
    have painted := mem_finalPaint s stack membership
    rw [accounted.finalColor_of_waiting distinct waiting present place.symm, place] at painted
    exact mem_ranges_ofPaint.mpr painted
  case others =>
    intro c membership settled
    have painted := mem_finalPaint s stack membership
    rw [finalColor_of_settled settled] at painted
    exact mem_ranges_ofPaint.mpr painted

theorem colorOf?_ofRun (distinct : (recorded.map (·.occurrence.range)).Nodup)
    {c : ColoredOccurrence} (membership : c ∈ recorded) :
    (ofRun s recorded stack).colorOf? c.occurrence.range =
      some (finalColor s stack c) := by
  rw [← ranges_finalPaint (s := s)] at distinct
  exact colorOf?_ofPaint distinct (mem_finalPaint s stack membership)

theorem agrees_ofRun (accounted : Accounted s recorded stack) (colored : Colored s recorded stack)
    (known : ∀ c ∈ recorded, s.Knows c.occurrence.pair)
    (distinct : (recorded.map (·.occurrence.range)).Nodup) :
    (ofRun s recorded stack).Agrees (.ofRun s recorded stack) := by
  constructor
  case pairs =>
    intro p listed
    -- The index takes the color of a pair from its opening, which has that of the closing.
    have same : ∀ o ∈ recorded, o.status = .opened → ∀ c ∈ recorded,
        c.status = .matched o.occurrence.range → o.color = c.color := by
      intro o opening _ c closing matched
      obtain ⟨o', opening', -, place, color⟩ := colored.matched c closing _ matched
      rwa [eq_of_range distinct opening' opening place] at color
    have unsorted : p ∈ PairIndex.matchedPairs [] recorded :=
      (Ordered.sort_perm _ _).mem_iff.mp listed
    obtain ⟨c, closing, matched, place, color⟩ :=
      PairIndex.color_of_mem_matchedPairs (by simp) same unsorted
    obtain ⟨o, opening, -, place', color'⟩ := colored.matched c closing _ matched
    constructor
    · have settled : ∀ e ∈ stack.entries, e.opening ≠ o.occurrence.range :=
        place' ▸ accounted.settled_of_matched distinct closing matched
      rw [← place', colorOf?_ofRun distinct opening, finalColor_of_settled settled, color', color]
    · have settled := accounted.settled_of_not_opened distinct closing (by simp [matched])
      rw [← place, colorOf?_ofRun distinct closing, finalColor_of_settled settled, color]
  case orphans =>
    intro b listed
    rcases PairIndex.mem_orphans_ofRun.mp listed with closing | opening
    · obtain ⟨c, membership, status, rfl⟩ := PairIndex.exists_of_mem_loneClosings closing
      have settled := accounted.settled_of_not_opened distinct membership (by simp [status])
      rw [colorOf?_ofRun distinct membership, finalColor_of_settled settled]
    · obtain ⟨e, waiting, d, present, rfl⟩ := PairIndex.exists_of_mem_loneOpenings opening
      obtain ⟨c, membership, -, -, place⟩ := accounted.waiting e waiting
      have final := accounted.finalColor_of_waiting distinct waiting present place.symm
      rw [← place, colorOf?_ofRun distinct membership, final]
  case nothing =>
    intro r unlisted
    apply colorOf?_ofPaint_eq_none
    rw [ranges_finalPaint]
    intro painted
    exact unlisted ((accounted.ranges_ofRun known).mem_iff.mpr painted)

end ColorMap

namespace LineCache

variable {s : Settings} {oss : List (List Occurrence)}

theorem colorMap_ofLines : (ofLines s oss).colorMap s =
    .ofRun s (ofLines s oss).occurrences (ofLines s oss).carried := by
  rw [colorMap, swept, unclosed_ofLines]
  exact ColorMap.ofPaint_congr s.colors (painted_perm _ (paint_ofLines oss))

theorem colored (known : ∀ o ∈ oss.flatten, s.Knows o.pair) :
    Colored s (ofLines s oss).occurrences (ofLines s oss).carried := by
  obtain ⟨-, run⟩ := colored_matchAll known
  rwa [← run_ofLines] at run

theorem agrees (known : ∀ o ∈ oss.flatten, s.Knows o.pair)
    (ordered : oss.flatten.Pairwise fun o o' => o.range.start < o'.range.start) :
    ((ofLines s oss).colorMap s).Agrees ((ofLines s oss).pairIndex s) := by
  rw [colorMap_ofLines, pairIndex_ofLines]
  exact ColorMap.agrees_ofRun (accounted known ordered) (colored known) (knows_recorded known)
    (ranges_distinct known ordered)

theorem partitions (known : ∀ o ∈ oss.flatten, s.Knows o.pair)
    (ordered : oss.flatten.Pairwise fun o o' => o.range.start < o'.range.start) :
    ((ofLines s oss).colorMap s).Partitions s := by
  rw [colorMap_ofLines]
  exact ColorMap.partitions_ofRun (colored known) (ranges_distinct known ordered)

theorem lists (known : ∀ o ∈ oss.flatten, s.Knows o.pair)
    (ordered : oss.flatten.Pairwise fun o o' => o.range.start < o'.range.start) :
    ((ofLines s oss).colorMap s).Lists s (ofLines s oss).occurrences (ofLines s oss).carried := by
  rw [colorMap_ofLines]
  exact ColorMap.lists_ofRun (accounted known ordered) (knows_recorded known)
    (ranges_distinct known ordered)

end LineCache

end BracketColoring

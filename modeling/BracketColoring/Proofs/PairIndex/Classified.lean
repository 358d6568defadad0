import BracketColoring.PairIndex
import BracketColoring.Proofs.LineCache.ByLine
import BracketColoring.Proofs.Matching.Accounted
import BracketColoring.Proofs.Ordered.Sort

/-!
# Every bracket is classified once

The pair index of a document lists each recorded bracket once: as the opening or the closing of a
matched pair, or as a lone bracket. Closings are listed as they were recorded. Openings are not: the
matched ones are found from the closings and the lone ones on the stack that is left, and that these
are all of them is what `Accounted.balance` says.
-/

namespace BracketColoring

namespace PairIndex

def ranges (x : PairIndex) : List Range :=
  x.pairs.flatMap (fun p => [p.opening, p.closing]) ++ x.orphans.map (·.range)

/-- The index lists the given occurrences once each, with the roles and pairs that they have. -/
structure Classifies (s : Settings) (x : PairIndex) (os : List Occurrence) : Prop where
  ranges : x.ranges.Perm (os.map (·.range))
  distinct : x.ranges.Nodup
  openings : ∀ p ∈ x.pairs,
    ∃ o ∈ os, o.range = p.opening ∧ o.role = .opening ∧ o.pair = p.pair
  closings : ∀ p ∈ x.pairs,
    ∃ o ∈ os, o.range = p.closing ∧ o.role = .closing ∧ o.pair = p.pair
  forward : ∀ p ∈ x.pairs, p.opening.start < p.closing.start
  orphans : ∀ b ∈ x.orphans, ∃ o ∈ os, o.range = b.range ∧ o.role = b.role ∧ o.pair = b.pair
  colors : ∀ b ∈ x.orphans, ∃ d, s.pair? b.pair = some d ∧ b.color = d.orphan

/-- The index has the range under a pair: as one end of a matched pair, or as a lone bracket. -/
inductive Reports (x : PairIndex) : Range → PairId → Role → Prop
  | opening {p : BracketPair} : p ∈ x.pairs → Reports x p.opening p.pair .opening
  | closing {p : BracketPair} : p ∈ x.pairs → Reports x p.closing p.pair .closing
  | alone {b : OrphanBracket} : b ∈ x.orphans → Reports x b.range b.pair b.role

theorem exists_report {x : PairIndex} {r : Range} (listed : r ∈ x.ranges) :
    ∃ id role, x.Reports r id role := by
  rcases List.mem_append.mp listed with matched | alone
  · obtain ⟨p, inPairs, ends⟩ := List.mem_flatMap.mp matched
    simp only [List.mem_cons, List.not_mem_nil, or_false] at ends
    rcases ends with rfl | rfl
    · exact ⟨_, _, .opening inPairs⟩
    · exact ⟨_, _, .closing inPairs⟩
  · obtain ⟨b, inOrphans, rfl⟩ := List.mem_map.mp alone
    exact ⟨_, _, .alone inOrphans⟩

theorem Classifies.occurrence_of_report {s : Settings} {x : PairIndex} {os : List Occurrence}
    (classifies : x.Classifies s os) {r : Range} {id : PairId} {role : Role}
    (reported : x.Reports r id role) : ∃ o ∈ os, o.range = r ∧ o.role = role ∧ o.pair = id := by
  cases reported with
  | opening listed => exact classifies.openings _ listed
  | closing listed => exact classifies.closings _ listed
  | alone listed => exact classifies.orphans _ listed

/-! ## What the index is made of -/

section

variable {openings : List (Range × Color)} {recorded : List ColoredOccurrence}

theorem exists_of_mem_matchedPairs {p : BracketPair}
    (membership : p ∈ matchedPairs openings recorded) :
    ∃ c ∈ recorded, c.status = .matched p.opening ∧ c.occurrence.range = p.closing ∧
      c.occurrence.pair = p.pair := by
  induction recorded generalizing openings with
  | nil => cases membership
  | cons c rest ih =>
    have later : ∀ {openings}, p ∈ matchedPairs openings rest →
        ∃ c' ∈ c :: rest, c'.status = .matched p.opening ∧ c'.occurrence.range = p.closing ∧
          c'.occurrence.pair = p.pair := by
      intro openings inRest
      obtain ⟨c', old, found⟩ := ih inRest
      exact ⟨c', List.mem_cons_of_mem c old, found⟩
    unfold matchedPairs at membership
    cases status : c.status with
    | opened =>
      rw [status] at membership
      exact later membership
    | matched opening =>
      rw [status] at membership
      rcases List.mem_cons.mp membership with rfl | inRest
      · exact ⟨c, List.mem_cons_self, status, rfl, rfl⟩
      · exact later inRest
    | orphan =>
      rw [status] at membership
      exact later membership

/-- When closings have the colors of their openings, so have the pairs. -/
theorem color_of_mem_matchedPairs {p : BracketPair}
    (seen : ∀ w ∈ openings, ∀ c ∈ recorded, c.status = .matched w.1 → w.2 = c.color)
    (same : ∀ o ∈ recorded, o.status = .opened → ∀ c ∈ recorded,
      c.status = .matched o.occurrence.range → o.color = c.color)
    (membership : p ∈ matchedPairs openings recorded) :
    ∃ c ∈ recorded, c.status = .matched p.opening ∧ c.occurrence.range = p.closing ∧
      c.color = p.color := by
  induction recorded generalizing openings with
  | nil => cases membership
  | cons c rest ih =>
    have sameRest : ∀ o ∈ rest, o.status = .opened → ∀ c ∈ rest,
        c.status = .matched o.occurrence.range → o.color = c.color := by
      intro o inRest opened c' inRest' matched
      exact same o (List.mem_cons_of_mem c inRest) opened c' (List.mem_cons_of_mem c inRest') matched
    have seenRest : ∀ w ∈ openings, ∀ c ∈ rest, c.status = .matched w.1 → w.2 = c.color := by
      intro w listed c' inRest
      exact seen w listed c' (List.mem_cons_of_mem c inRest)
    unfold matchedPairs at membership
    cases status : c.status with
    | opened =>
      rw [status] at membership
      have seen' : ∀ w ∈ (c.occurrence.range, c.color) :: openings, ∀ c ∈ rest,
          c.status = .matched w.1 → w.2 = c.color := by
        intro w listed c' inRest matched
        rcases List.mem_cons.mp listed with rfl | old
        · exact same c List.mem_cons_self status c' (List.mem_cons_of_mem c inRest) matched
        · exact seenRest w old c' inRest matched
      obtain ⟨c', inRest, found⟩ := ih seen' sameRest membership
      exact ⟨c', List.mem_cons_of_mem c inRest, found⟩
    | matched opening =>
      rw [status] at membership
      rcases List.mem_cons.mp membership with rfl | later
      · refine ⟨c, List.mem_cons_self, status, rfl, ?_⟩
        unfold openingColor
        cases found : openings.find? fun w => decide (w.1 = opening) with
        | none => rfl
        | some w =>
          have hit : w.1 = opening := by simpa using List.find?_some found
          have listed := List.mem_of_find?_eq_some found
          exact (seen w listed c List.mem_cons_self (hit ▸ status)).symm
      · obtain ⟨c', inRest, found⟩ := ih seenRest sameRest later
        exact ⟨c', List.mem_cons_of_mem c inRest, found⟩
    | orphan =>
      rw [status] at membership
      obtain ⟨c', inRest, found⟩ := ih seenRest sameRest membership
      exact ⟨c', List.mem_cons_of_mem c inRest, found⟩

theorem openings_matchedPairs :
    (matchedPairs openings recorded).map (·.opening) = recorded.filterMap (·.partner?) := by
  induction recorded generalizing openings with
  | nil => rfl
  | cons c rest ih =>
    unfold matchedPairs
    cases status : c.status <;> simp [ColoredOccurrence.partner?, status, ih]

/-- A recorded bracket is an opening, the closing of a matched pair, or a lone closing. -/
theorem ranges_recorded (openings : List (Range × Color)) (recorded : List ColoredOccurrence) :
    (recorded.map (·.occurrence.range)).Perm
      (recorded.filterMap (·.opened?) ++ ((matchedPairs openings recorded).map (·.closing) ++
        (loneClosings recorded).map (·.range))) := by
  induction recorded generalizing openings with
  | nil => exact .refl _
  | cons c rest ih =>
    unfold matchedPairs
    cases status : c.status with
    | opened =>
      simpa [ColoredOccurrence.opened?, loneClosings, status] using
        ih ((c.occurrence.range, c.color) :: openings)
    | matched opening =>
      have moved := ((ih openings).cons c.occurrence.range).trans List.perm_middle.symm
      simpa [ColoredOccurrence.opened?, loneClosings, status] using moved
    | orphan =>
      have moved := (ih openings).cons c.occurrence.range
      rw [← List.append_assoc] at moved
      have moved' := moved.trans List.perm_middle.symm
      simpa [ColoredOccurrence.opened?, loneClosings, status] using moved'

theorem exists_of_mem_loneClosings {b : OrphanBracket} (membership : b ∈ loneClosings recorded) :
    ∃ c ∈ recorded, c.status = .orphan ∧
      b = ⟨c.occurrence.pair, c.occurrence.range, c.occurrence.role, c.color⟩ := by
  obtain ⟨c, kept, rfl⟩ := List.mem_map.mp membership
  obtain ⟨old, status⟩ := List.mem_filter.mp kept
  exact ⟨c, old, by simpa using status, rfl⟩

end

/-- The openings that wait, with the pairs they are of. -/
def withPairs (s : Settings) (entries : List StackEntry) : List (StackEntry × PairDefinition) :=
  entries.filterMap fun e => (s.pair? e.pair).map fun d => (e, d)

theorem exists_of_mem_loneOpenings {s : Settings} {entries : List StackEntry} {b : OrphanBracket}
    (membership : b ∈ loneOpenings (withPairs s entries)) :
    ∃ e ∈ entries, ∃ d, s.pair? e.pair = some d ∧ b = ⟨e.pair, e.opening, .opening, d.orphan⟩ := by
  obtain ⟨⟨e, d⟩, paired, rfl⟩ := List.mem_map.mp membership
  obtain ⟨e', waiting, present⟩ := List.mem_filterMap.mp paired
  obtain ⟨d', known, equal⟩ := Option.map_eq_some_iff.mp present
  cases equal
  exact ⟨e, waiting, d, known, rfl⟩

theorem ranges_loneOpenings {s : Settings} {entries : List StackEntry}
    (known : ∀ e ∈ entries, s.Knows e.pair) :
    (loneOpenings (withPairs s entries)).map (·.range) = entries.map (·.opening) := by
  induction entries with
  | nil => rfl
  | cons e rest ih =>
    obtain ⟨d, present, -⟩ := known e List.mem_cons_self
    have later := ih fun e' waiting => known e' (List.mem_cons_of_mem e waiting)
    simpa [loneOpenings, withPairs, present] using later

theorem ranges_inOrder (pairs : List BracketPair) (orphans : List OrphanBracket) :
    (inOrder pairs orphans).ranges.Perm
      (pairs.map (·.opening) ++ pairs.map (·.closing) ++ orphans.map (·.range)) := by
  have ends : ∀ ps : List BracketPair, (ps.flatMap fun p => [p.opening, p.closing]).Perm
      (ps.map (·.opening) ++ ps.map (·.closing)) := by
    intro ps
    induction ps with
    | nil => exact .refl _
    | cons p rest ih =>
      have inner := (ih.cons p.closing).trans List.perm_middle.symm
      simpa using inner.cons p.opening
  refine List.Perm.append ?_ ((Ordered.sort_perm _ orphans).map _)
  exact ((Ordered.sort_perm _ pairs).flatMap_right _).trans (ends pairs)

/-- The index of what a run recorded and of the stack that it left. -/
def ofRun (s : Settings) (recorded : List ColoredOccurrence) (stack : MatchStack) : PairIndex :=
  inOrder (matchedPairs [] recorded)
    (loneClosings recorded ++ loneOpenings (withPairs s stack.entries))

section

variable {s : Settings} {recorded : List ColoredOccurrence} {stack : MatchStack}

theorem exists_of_mem_pairs_ofRun {p : BracketPair} (listed : p ∈ (ofRun s recorded stack).pairs) :
    ∃ c ∈ recorded, c.status = .matched p.opening ∧ c.occurrence.range = p.closing ∧
      c.occurrence.pair = p.pair :=
  exists_of_mem_matchedPairs ((Ordered.sort_perm _ _).mem_iff.mp listed)

theorem mem_orphans_ofRun {b : OrphanBracket} :
    b ∈ (ofRun s recorded stack).orphans ↔
      b ∈ loneClosings recorded ∨ b ∈ loneOpenings (withPairs s stack.entries) :=
  (Ordered.sort_perm _ _).mem_iff.trans List.mem_append

end

end PairIndex

namespace Accounted

variable {s : Settings} {recorded : List ColoredOccurrence} {stack : MatchStack}

theorem role_of_matched (accounted : Accounted s recorded stack) {c : ColoredOccurrence}
    (membership : c ∈ recorded) {r : Range} (status : c.status = .matched r) :
    c.occurrence.role = .closing := by
  have role := accounted.roles c membership
  rw [status] at role
  cases which : c.occurrence.role with
  | opening => simp [which] at role
  | closing => rfl

theorem ranges_ofRun (accounted : Accounted s recorded stack)
    (known : ∀ c ∈ recorded, s.Knows c.occurrence.pair) :
    (PairIndex.ofRun s recorded stack).ranges.Perm (recorded.map (·.occurrence.range)) := by
  have entriesKnown : ∀ e ∈ stack.entries, s.Knows e.pair := by
    intro e waiting
    obtain ⟨c, membership, -, pair, -⟩ := accounted.waiting e waiting
    exact pair ▸ known c membership
  -- Openings are listed out of order, so each permutation is counted range by range.
  apply List.perm_iff_count.mpr
  intro r
  have listed := (PairIndex.ranges_inOrder (PairIndex.matchedPairs [] recorded)
    (PairIndex.loneClosings recorded ++
      PairIndex.loneOpenings (PairIndex.withPairs s stack.entries))).count_eq r
  have balance := accounted.balance.count_eq r
  have each := (PairIndex.ranges_recorded [] recorded).count_eq r
  rw [List.map_append, PairIndex.ranges_loneOpenings entriesKnown,
    PairIndex.openings_matchedPairs] at listed
  simp only [List.count_append] at listed balance each
  rw [PairIndex.ofRun]
  omega

/-- When every opening is accounted for, the index classifies what was recorded. -/
theorem classifies (accounted : Accounted s recorded stack)
    (known : ∀ c ∈ recorded, s.Knows c.occurrence.pair)
    (distinct : (recorded.map (·.occurrence.range)).Nodup) :
    (PairIndex.ofRun s recorded stack).Classifies s (recorded.map (·.occurrence)) := by
  have ranges := accounted.ranges_ofRun known
  refine ⟨by rw [List.map_map]; exact ranges, ?_, ?_, ?_, ?_, ?_, ?_⟩
  · exact ranges.nodup_iff.mpr distinct
  · intro p listed
    obtain ⟨c, membership, status, -, pair⟩ :=
      PairIndex.exists_of_mem_pairs_ofRun listed
    obtain ⟨⟨c', membership', status', pair', place⟩, -⟩ := accounted.matched c membership _ status
    exact ⟨c'.occurrence, List.mem_map_of_mem membership', place,
      (accounted.roles c' membership').mp status', pair'.trans pair⟩
  · intro p listed
    obtain ⟨c, membership, status, place, pair⟩ :=
      PairIndex.exists_of_mem_pairs_ofRun listed
    exact ⟨c.occurrence, List.mem_map_of_mem membership, place,
      accounted.role_of_matched membership status, pair⟩
  · intro p listed
    obtain ⟨c, membership, status, place, -⟩ :=
      PairIndex.exists_of_mem_pairs_ofRun listed
    rw [← place]
    exact (accounted.matched c membership _ status).2
  · intro b listed
    rcases PairIndex.mem_orphans_ofRun.mp listed with closing | opening
    · obtain ⟨c, membership, -, rfl⟩ := PairIndex.exists_of_mem_loneClosings closing
      exact ⟨c.occurrence, List.mem_map_of_mem membership, rfl, rfl, rfl⟩
    · obtain ⟨e, waiting, d, -, rfl⟩ := PairIndex.exists_of_mem_loneOpenings opening
      obtain ⟨c, membership, status, pair, place⟩ := accounted.waiting e waiting
      exact ⟨c.occurrence, List.mem_map_of_mem membership, place,
        (accounted.roles c membership).mp status, pair⟩
  · intro b listed
    rcases PairIndex.mem_orphans_ofRun.mp listed with closing | opening
    · obtain ⟨c, membership, status, rfl⟩ := PairIndex.exists_of_mem_loneClosings closing
      exact accounted.alone c membership status
    · obtain ⟨e, -, d, present, rfl⟩ := PairIndex.exists_of_mem_loneOpenings opening
      exact ⟨d, present, rfl⟩

end Accounted

namespace LineCache

variable {s : Settings} {oss : List (List Occurrence)}

theorem unclosed_ofLines : (ofLines s oss).unclosed s =
    PairIndex.withPairs s (ofLines s oss).carried.entries := by
  have start : (ofLines s oss).start = .start s := start_ofLines oss
  unfold unclosed carried
  cases (ofLines s oss).last? with
  | none => simp [start, PairIndex.withPairs]
  | some l => rfl

theorem pairIndex_ofLines : (ofLines s oss).pairIndex s =
    .ofRun s (ofLines s oss).occurrences (ofLines s oss).carried := by
  rw [pairIndex, unclosed_ofLines]
  rfl

theorem accounted (known : ∀ o ∈ oss.flatten, s.Knows o.pair)
    (ordered : oss.flatten.Pairwise fun o o' => o.range.start < o'.range.start) :
    Accounted s (ofLines s oss).occurrences (ofLines s oss).carried := by
  have run := accounted_matchAll known ordered
  rwa [← run_ofLines] at run

theorem knows_recorded (known : ∀ o ∈ oss.flatten, s.Knows o.pair) :
    ∀ c ∈ (ofLines s oss).occurrences, s.Knows c.occurrence.pair := by
  intro c membership
  apply known
  rw [← map_occurrences_ofLines known]
  exact List.mem_map_of_mem membership

theorem ranges_distinct (known : ∀ o ∈ oss.flatten, s.Knows o.pair)
    (ordered : oss.flatten.Pairwise fun o o' => o.range.start < o'.range.start) :
    ((ofLines s oss).occurrences.map (·.occurrence.range)).Nodup := by
  rw [← map_occurrences_ofLines known] at ordered
  exact List.pairwise_map.mpr ((List.pairwise_map.mp ordered).imp Range.ne_of_start_lt)

theorem classifies (known : ∀ o ∈ oss.flatten, s.Knows o.pair)
    (ordered : oss.flatten.Pairwise fun o o' => o.range.start < o'.range.start) :
    ((ofLines s oss).pairIndex s).Classifies s
      ((ofLines s oss).occurrences.map (·.occurrence)) := by
  rw [pairIndex_ofLines]
  exact (accounted known ordered).classifies (knows_recorded known) (ranges_distinct known ordered)

end LineCache

end BracketColoring

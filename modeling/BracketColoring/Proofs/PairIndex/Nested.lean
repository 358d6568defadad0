import BracketColoring.Proofs.Matching.Depth
import BracketColoring.Proofs.Occurrence.Placed
import BracketColoring.Proofs.PairIndex.Classified

/-!
# Pairs around a position

The pairs of an index are in the order of their openings, no two of which start at one place. So the
last pair around a position starts after the others, and no other lies in its span. On one stack a
pair that opens inside of another closes inside of it (`Measures.closing_lt`), and then the last pair
lies in the spans of the others.
-/

namespace BracketColoring

/-- A range lies in another one. -/
def Range.Within (a b : Range) : Prop := b.start ≤ a.start ∧ a.stop ≤ b.stop

namespace BracketPair

/-- The spans of two pairs have no place in common. -/
def Apart (p q : BracketPair) : Prop :=
  p.closing.stop ≤ q.opening.start ∨ q.closing.stop ≤ p.opening.start

/-- The span of a pair lies between the opening and the closing of another. -/
def Inside (p q : BracketPair) : Prop :=
  q.opening.stop ≤ p.opening.start ∧ p.closing.stop ≤ q.closing.start

theorem contains_iff {p : BracketPair} {pos : Position} :
    p.contains pos = true ↔ p.opening.start ≤ pos ∧ pos < p.closing.stop := by
  rw [contains, Range.contains, Bool.and_eq_true]
  exact and_congr decide_eq_true_iff decide_eq_true_iff

end BracketPair

namespace PairIndex

/-- Of two pairs, one lies between the opening and the closing of the other, or they have no place
in common. -/
def Nests (x : PairIndex) : Prop :=
  ∀ p ∈ x.pairs, ∀ q ∈ x.pairs, p ≠ q → p.Apart q ∨ p.Inside q ∨ q.Inside p

/-- A pair around a position, in whose span no other pair around it lies. -/
structure Innermost (x : PairIndex) (pos : Position) (p : BracketPair) : Prop where
  listed : p ∈ x.pairs
  around : p.contains pos = true
  least : ∀ q ∈ x.pairs, q.contains pos = true → q ≠ p → ¬ q.span.Within p.span

/-- The pairs are listed in the order in which they start. -/
def Increasing (x : PairIndex) : Prop :=
  x.pairs.Pairwise fun p q => p.opening.start < q.opening.start

/-! ## The last pair around a position -/

/-- Pairs that start behind a position are not around it. -/
theorem filter_takeWhile_contains {pairs : List BracketPair} (pos : Position)
    (increasing : pairs.Pairwise fun p q => p.opening.start < q.opening.start) :
    (pairs.takeWhile fun p => decide (p.opening.start ≤ pos)).filter (·.contains pos) =
      pairs.filter (·.contains pos) := by
  induction pairs with
  | nil => rfl
  | cons p rest ih =>
    rcases List.pairwise_cons.mp increasing with ⟨later, increasingRest⟩
    by_cases before : p.opening.start ≤ pos
    · rw [List.takeWhile_cons_of_pos (by exact decide_eq_true before), List.filter_cons,
        List.filter_cons, ih increasingRest]
    · rw [List.takeWhile_cons_of_neg (by exact fun inside => before (of_decide_eq_true inside)),
        List.filter_nil]
      refine (List.filter_eq_nil_iff.mpr ?_).symm
      intro q listed around
      rcases List.mem_cons.mp listed with rfl | inRest
      · exact before (BracketPair.contains_iff.mp around).1
      · exact before (le_trans (le_of_lt (later q inRest)) (BracketPair.contains_iff.mp around).1)

theorem foldl_inner {pairs : List BracketPair}
    (increasing : pairs.Pairwise fun p q => p.opening.start < q.opening.start) :
    pairs.foldl inner none = pairs.getLast? := by
  induction pairs using List.reverseRecOn with
  | nil => rfl
  | append_singleton pairs p ih =>
    rcases List.pairwise_append.mp increasing with ⟨before, _, last⟩
    rw [List.foldl_append, ih before, List.getLast?_concat]
    cases latest : pairs.getLast? with
    | none => rfl
    | some b =>
      have earlier := last b (List.mem_of_getLast? latest) p List.mem_cons_self
      exact if_pos (le_of_lt earlier)

theorem Increasing.enclosing?_eq {x : PairIndex} (increasing : x.Increasing) (pos : Position) :
    x.enclosing? pos = (x.pairs.filter (·.contains pos)).getLast? := by
  rw [enclosing?, filter_takeWhile_contains pos increasing]
  exact foldl_inner (increasing.filter _)

theorem Increasing.enclosing?_eq_none_iff {x : PairIndex} (increasing : x.Increasing)
    (pos : Position) : x.enclosing? pos = none ↔ ∀ p ∈ x.pairs, p.contains pos = false := by
  rw [increasing.enclosing?_eq, List.getLast?_eq_none_iff, List.filter_eq_nil_iff]
  simp only [Bool.not_eq_true]

/-- The pair that is found starts behind the other pairs around the position. -/
theorem Increasing.start_lt_of_enclosing? {x : PairIndex} (increasing : x.Increasing)
    {pos : Position} {p : BracketPair} (found : x.enclosing? pos = some p) :
    p ∈ x.pairs ∧ p.contains pos = true ∧
      ∀ q ∈ x.pairs, q.contains pos = true → q ≠ p → q.opening.start < p.opening.start := by
  rw [increasing.enclosing?_eq] at found
  rcases List.mem_filter.mp (List.mem_of_getLast? found) with ⟨listed, around⟩
  refine ⟨listed, around, ?_⟩
  intro q listed' around' other
  rcases List.getLast?_eq_some_iff.mp found with ⟨before, split⟩
  have ordered := increasing.filter (·.contains pos)
  rw [split] at ordered
  have member : q ∈ x.pairs.filter (·.contains pos) := List.mem_filter.mpr ⟨listed', around'⟩
  rw [split] at member
  rcases List.mem_append.mp member with earlier | last
  · exact (List.pairwise_append.mp ordered).2.2 q earlier p List.mem_cons_self
  · exact absurd (List.mem_singleton.mp last) other

theorem Increasing.innermost {x : PairIndex} (increasing : x.Increasing) {pos : Position}
    {p : BracketPair} (found : x.enclosing? pos = some p) : x.Innermost pos p := by
  rcases increasing.start_lt_of_enclosing? found with ⟨listed, around, later⟩
  refine ⟨listed, around, ?_⟩
  intro q listed' around' other within
  exact not_le_of_gt (later q listed' around' other) within.1

/-- When pairs nest, the pair that is found lies in the span of every pair around the position. -/
theorem Increasing.within_of_nests {x : PairIndex} (increasing : x.Increasing) (nests : x.Nests)
    (filled : ∀ p ∈ x.pairs, p.opening.start < p.opening.stop ∧ p.closing.start < p.closing.stop)
    {pos : Position} {p : BracketPair} (found : x.enclosing? pos = some p) {q : BracketPair}
    (listed : q ∈ x.pairs) (around : q.contains pos = true) : p.span.Within q.span := by
  rcases increasing.start_lt_of_enclosing? found with ⟨listed', around', later⟩
  by_cases same : q = p
  · rw [same]
    exact ⟨le_refl _, le_refl _⟩
  · have before := later q listed around same
    rcases BracketPair.contains_iff.mp around with ⟨start, stop⟩
    rcases BracketPair.contains_iff.mp around' with ⟨start', stop'⟩
    rcases nests q listed p listed' same with (apart | apart) | inside | inside
    · exact absurd (lt_of_lt_of_le stop apart) (not_lt_of_ge start')
    · exact absurd (lt_of_lt_of_le stop' apart) (not_lt_of_ge start)
    · -- Then the other pair would start behind the one that is found.
      have opened := lt_trans before (filled p listed').1
      exact absurd opened (not_lt_of_ge inside.1)
    · exact ⟨le_of_lt before, le_trans inside.2 (le_of_lt (filled q listed).2)⟩

/-! ## The pairs of a run -/

section

variable {s : Settings} {os : List Occurrence} {start : Position} {text : List Char}
  {p q : BracketPair}

/-- The index of a run over all of some occurrences. -/
def ofAll (s : Settings) (os : List Occurrence) : PairIndex :=
  .ofRun s (s.matchAll (.start s) os).1 (s.matchAll (.start s) os).2

theorem classifies_ofAll (known : ∀ o ∈ os, s.Knows o.pair) (placed : Placed start text os) :
    (ofAll s os).Classifies s os := by
  have recorded : (s.matchAll (.start s) os).1.map (·.occurrence) = os :=
    Settings.occurrences_matchAll known
  have accounted := accounted_matchAll known placed.starts_increase
  have classifies := accounted.classifies
    (fun c membership => known _ (Settings.occurrence_mem_of_mem_matchAll known membership))
    (by
      have distinct := placed.ranges_nodup
      rwa [← recorded, List.map_map] at distinct)
  rwa [recorded] at classifies

/-- The pairs are sorted by their openings, and two openings do not start at one place. -/
theorem increasing_ofAll (known : ∀ o ∈ os, s.Knows o.pair) (placed : Placed start text os) :
    (ofAll s os).Increasing := by
  have classifies := classifies_ofAll known placed
  have sorted : (ofAll s os).pairs.Pairwise fun p q => p.opening ≤ q.opening :=
    Ordered.pairwise_sort_key BracketPair.opening _
  have distinct : (ofAll s os).pairs.Pairwise fun p q => p.opening ≠ q.opening := by
    have ends := (List.nodup_append.mp classifies.distinct).1
    refine (List.nodup_flatMap.mp ends).2.imp ?_
    intro p q apart same
    exact List.disjoint_left.mp apart List.mem_cons_self (same ▸ List.mem_cons_self)
  refine (sorted.and distinct).imp_of_mem ?_
  intro p q listed listed' ordered
  refine lt_of_le_of_ne ?_ ?_
  · rcases Range.le_def.mp ordered.1 with before | ⟨same, _⟩
    · exact le_of_lt before
    · exact le_of_eq same
  · intro same
    rcases classifies.openings p listed with ⟨o, member, range, _⟩
    rcases classifies.openings q listed' with ⟨o', member', range', _⟩
    rw [← range, ← range'] at same
    have equal := placed.eq_of_start_eq member member' same
    exact ordered.2 (by rw [← range, ← range', equal])

theorem filled_ofAll (known : ∀ o ∈ os, s.Knows o.pair) (placed : Placed start text os) :
    ∀ p ∈ (ofAll s os).pairs,
      p.opening.start < p.opening.stop ∧ p.closing.start < p.closing.stop := by
  intro p listed
  have classifies := classifies_ofAll known placed
  rcases classifies.openings p listed with ⟨o, member, range, _⟩
  rcases classifies.closings p listed with ⟨c, member', range', _⟩
  rw [← range, ← range']
  exact ⟨placed.start_lt_stop member, placed.start_lt_stop member'⟩

/-- A pair of one stack is an opening and a closing that are joined. -/
theorem exists_joined (mode : s.mode = .consecutive) (known : ∀ o ∈ os, s.Knows o.pair)
    (placed : Placed start text os) (listed : p ∈ (ofAll s os).pairs) :
    ∃ i j o c, os[i]? = some o ∧ os[j]? = some c ∧ o.range = p.opening ∧ c.range = p.closing ∧
      Joined os i j := by
  rcases exists_of_mem_pairs_ofRun listed with ⟨c, recorded, status, range, _⟩
  have accounted := accounted_matchAll known placed.starts_increase
  have closing := accounted.role_of_matched recorded status
  rcases List.getElem?_of_mem recorded with ⟨j, here⟩
  have all : (s.matchAll (.start s) os).1.map (·.occurrence) = os :=
    Settings.occurrences_matchAll known
  have second : os[j]? = some c.occurrence := by
    rw [← all, List.getElem?_map, here]
    rfl
  have matched : statusAt (s.matchAll (.start s) os).1 j = some (.matched p.opening) := by
    rw [statusAt, here, Option.map_some, status]
  rcases Settings.exists_joined_of_statusAt mode known second closing matched with
    ⟨i, o, first, place, joined⟩
  exact ⟨i, j, o, c.occurrence, first, second, place, range, joined⟩

theorem nests_ofAll (mode : s.mode = .consecutive) (known : ∀ o ∈ os, s.Knows o.pair)
    (placed : Placed start text os) : (ofAll s os).Nests := by
  have measures := Settings.measures_size mode known
  -- Of two openings the earlier one is closed first, or the later one is closed before it.
  have ordered : ∀ {i j k l : Nat} {o c o' c' : Occurrence}, os[i]? = some o → os[j]? = some c →
      os[k]? = some o' → os[l]? = some c' → Joined os i j → Joined os k l → i < k →
      c.range.stop ≤ o'.range.start ∨
        o.range.stop ≤ o'.range.start ∧ c'.range.stop ≤ c.range.start := by
    intro i j k l o c o' c' first second third fourth outer inner before
    rcases Nat.lt_trichotomy k j with inside | same | behind
    · have closed := measures.closing_lt outer inner before inside
      exact .inr ⟨placed.stop_le_start first third before, placed.stop_le_start fourth second closed⟩
    · rcases outer with ⟨_, _, _, closes, _, role, _⟩
      rcases inner with ⟨_, _, opens, _, role', _⟩
      subst same
      cases closes.symm.trans opens
      cases role.symm.trans role'
    · exact .inl (placed.stop_le_start second third behind)
  intro p listed q listed' other
  rcases exists_joined mode known placed listed with
    ⟨i, j, o, c, first, second, opening, closing, joined⟩
  rcases exists_joined mode known placed listed' with
    ⟨k, l, o', c', first', second', opening', closing', joined'⟩
  rw [BracketPair.Apart, BracketPair.Inside, BracketPair.Inside, ← opening, ← closing, ← opening',
    ← closing']
  rcases Nat.lt_trichotomy i k with before | same | behind
  · rcases ordered first second first' second' joined joined' before with apart | inside
    · exact .inl (.inl apart)
    · exact .inr (.inr inside)
  · subst same
    cases first.symm.trans first'
    have distinct : ((ofAll s os).pairs.map fun p => p.opening.start).Nodup :=
      List.pairwise_map.mpr ((increasing_ofAll known placed).imp ne_of_lt)
    have starts : p.opening.start = q.opening.start := by rw [← opening, ← opening']
    exact absurd (List.inj_on_of_nodup_map distinct listed listed' starts) other
  · rcases ordered first' second' first second joined' joined behind with apart | inside
    · exact .inl (.inr apart)
    · exact .inr (.inl inside)

end

end PairIndex

end BracketColoring

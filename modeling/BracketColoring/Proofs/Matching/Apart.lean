import BracketColoring.Proofs.Matching.Balance
import BracketColoring.Proofs.Matching.Meeting
import BracketColoring.Proofs.Matching.Palette

/-!
# Each pair on its own

In independent mode a pair does not see the others: what is recorded for its brackets is what a
shared stack records for them alone (`Settings.matchAll_part`). On one pair alone settled sequences
are the balanced ones, so there the grammar of matching and the law of colors become statements
about counts (`Settings.pairs_match_apart`).
-/

namespace BracketColoring

/-! ## Places in a part of a sequence -/

section

variable {α : Type} {q : α → Bool} {xs : List α} {i j n : Nat} {x : α}

/-- There is an element at an index that passes a test. -/
def Passes (q : α → Bool) (xs : List α) (n : Nat) : Prop := ∃ x, xs[n]? = some x ∧ q x = true

/-- The place in the part of a sequence that passes a test. -/
def rank (q : α → Bool) (xs : List α) (n : Nat) : Nat := (xs.take n).countP q

theorem rank_zero : rank q xs 0 = 0 := rfl

theorem rank_succ (passes : Passes q xs n) : rank q xs (n + 1) = rank q xs n + 1 := by
  obtain ⟨x, present, pass⟩ := passes
  rw [rank, List.take_add_one, present, Option.toList_some, List.countP_append,
    List.countP_singleton, if_pos pass]
  rfl

theorem rank_succ_of_not (fails : ¬ Passes q xs n) : rank q xs (n + 1) = rank q xs n := by
  rw [rank, List.take_add_one, List.countP_append]
  cases present : xs[n]? with
  | none => rfl
  | some x =>
    have fail : ¬ q x = true := fun pass => fails ⟨x, present, pass⟩
    rw [Option.toList_some, List.countP_singleton, if_neg fail]
    rfl

theorem take_filter_rank : (xs.filter q).take (rank q xs n) = (xs.take n).filter q := by
  have parts : xs.filter q = (xs.take n).filter q ++ (xs.drop n).filter q := by
    rw [← List.filter_append, List.take_append_drop]
  rw [parts, rank, List.countP_eq_length_filter, List.take_left]

theorem getElem?_rank (present : xs[n]? = some x) (pass : q x = true) :
    (xs.filter q)[rank q xs n]? = some x := by
  have next : ((xs.filter q).take (rank q xs (n + 1)))[rank q xs n]? = some x := by
    rw [take_filter_rank, List.take_add_one, present, Option.toList_some, List.filter_append, rank,
      List.countP_eq_length_filter, List.getElem?_append_right (Nat.le_refl _)]
    simp [pass]
  rw [rank_succ ⟨x, present, pass⟩, List.getElem?_take] at next
  simpa using next

/-- What lies between two places in the part is what passes between the places they come from. -/
theorem take_drop_filter_rank (passes : Passes q xs i) (before : i < j) :
    ((xs.filter q).take (rank q xs j)).drop (rank q xs i + 1) =
      ((xs.take j).drop (i + 1)).filter q := by
  have here : rank q xs i + 1 = ((xs.take (i + 1)).filter q).length := by
    rw [← rank_succ passes, rank, List.countP_eq_length_filter]
  have parts := congrArg (List.filter q) (List.take_append_drop (i + 1) (xs.take j))
  rw [List.filter_append, List.take_take, Nat.min_eq_left before] at parts
  rw [take_filter_rank, here, ← parts, List.drop_left]

theorem rank_le (before : i ≤ j) : rank q xs i ≤ rank q xs j :=
  (List.take_sublist_take_left before).countP_le

theorem rank_lt (passes : Passes q xs i) (before : i < j) : rank q xs i < rank q xs j := by
  have next := rank_succ passes
  have more : rank q xs (i + 1) ≤ rank q xs j := rank_le before
  omega

end

/-! ## One pair of a run -/

/-- The occurrences of a pair. -/
def part (p : PairId) (os : List Occurrence) : List Occurrence := os.filter fun o => o.pair = p

theorem pair_of_mem_part {p : PairId} {os : List Occurrence} : ∀ o ∈ part p os, o.pair = p := by
  simp [part]

namespace Settings

variable {s t : Settings} {os : List Occurrence} {o : Occurrence} {d : PairDefinition} {p : PairId}

/-- A shared stack on which only openings of one pair wait is the pile of that pair. -/
theorem matchShared_eq_matchOwn (byDepth : t.cycleOpenings = false) (level : t.colorOffset d.id = 0)
    {es : List StackEntry} (own : ∀ e ∈ es, e.pair = d.id) (opened : Nat) :
    ∃ opened', t.matchShared d o es opened =
      ((matchOwn d o es).1, (matchOwn d o es).2.1, .shared (matchOwn d o es).2.2 opened') := by
  rw [colorOffset] at level
  unfold matchShared matchOwn
  cases o.role with
  | opening => exact ⟨opened + 1, by simp [sharedColor, byDepth, level]⟩
  | closing =>
    cases es with
    | nil => exact ⟨opened, rfl⟩
    | cons e rest => exact ⟨opened, by simp [own e List.mem_cons_self]⟩

/-- What is recorded of a pair when pairs are apart is what a shared stack records for that pair
alone, and the pile of the pair is that stack. -/
theorem matchAll_part (pairs : t.pairs = s.pairs) (byDepth : t.cycleOpenings = false)
    (level : t.colorOffset p = 0) (known : ∀ o ∈ os, s.Knows o.pair)
    {piles : List (List StackEntry)} {es : List StackEntry} (pile : piles[p]? = some es)
    (own : ∀ e ∈ es, e.pair = p) (opened : Nat) :
    (s.matchAll (.perPair piles) os).1.filter (fun c => c.occurrence.pair = p) =
        (t.matchAll (.shared es opened) (part p os)).1 ∧
      ∃ piles' es' opened', (s.matchAll (.perPair piles) os).2 = .perPair piles' ∧
        piles'[p]? = some es' ∧
        (t.matchAll (.shared es opened) (part p os)).2 = .shared es' opened' := by
  induction os generalizing piles es opened with
  | nil => exact ⟨rfl, piles, es, opened, rfl, pile, rfl⟩
  | cons o rest ih =>
    obtain ⟨d, present, numbered⟩ := known o List.mem_cons_self
    have knownRest : ∀ o ∈ rest, s.Knows o.pair := fun o membership =>
      known o (List.mem_cons_of_mem _ membership)
    have present' : t.pair? o.pair = some d := by rw [pair?, pairs]; exact present
    rw [matchAll]
    simp only [present, matchNext]
    by_cases here : o.pair = p
    · have place : d.id = p := numbered.trans here
      have inside : d.id < piles.length := place ▸ (List.getElem?_eq_some_iff.mp pile).1
      obtain ⟨opened', step⟩ := matchShared_eq_matchOwn (o := o) byDepth (place.symm ▸ level)
        (place.symm ▸ own) opened
      have mine : part p (o :: rest) = o :: part p rest := by simp [part, here]
      have onPile : piles[d.id]? = some es := place.symm ▸ pile
      have next : (piles.set d.id (matchOwn d o es).2.2)[p]? = some (matchOwn d o es).2.2 := by
        rw [← place, List.getElem?_set_self inside]
      have ownNext : ∀ e ∈ (matchOwn d o es).2.2, e.pair = p :=
        place ▸ own_matchOwn (place.symm ▸ own)
      obtain ⟨recorded, stack⟩ := ih knownRest next ownNext opened'
      rw [mine, matchAll]
      simp only [present', matchNext, step, onPile, Option.getD_some]
      refine ⟨?_, stack⟩
      rw [List.filter_cons, if_pos (by simp [here]), recorded]
    · have place : d.id ≠ p := fun same => here (numbered.symm.trans same)
      have others : part p (o :: rest) = part p rest := by simp [part, here]
      have next : (piles.set d.id (matchOwn d o (piles[d.id]?.getD [])).2.2)[p]? = some es := by
        rw [List.getElem?_set_ne place, pile]
      obtain ⟨recorded, stack⟩ := ih knownRest next own opened
      rw [others]
      refine ⟨?_, stack⟩
      rw [List.filter_cons, if_neg (by simp [here]), recorded]

/-- The same pairs on one stack, colored by depth alone. -/
def byDepth (s : Settings) : Settings :=
  { s with mode := .consecutive, uniqueOpening := false, cycleOpenings := false }

theorem filter_matchAll_start (mode : s.mode = .independent) (known : ∀ o ∈ os, s.Knows o.pair)
    (paired : p < s.pairs.length) :
    (s.matchAll (.start s) os).1.filter (fun c => c.occurrence.pair = p) =
      (s.byDepth.matchAll (.start s.byDepth) (part p os)).1 := by
  have empty : (List.replicate s.pairs.length ([] : List StackEntry))[p]? = some [] := by
    simp [paired]
  rw [MatchStack.start_of_independent mode]
  exact (matchAll_part (s := s) (t := s.byDepth) rfl rfl rfl known empty (by simp) 0).1

end Settings

/-! ## The law of independent pairs -/

/-- There is an opening of a pair at an index. -/
def OpensPair (p : PairId) (os : List Occurrence) (i : Nat) : Prop :=
  ∃ o, os[i]? = some o ∧ o.role = .opening ∧ o.pair = p

/-- The opening and the closing at two indices are of one pair, and the occurrences of that pair
between them are balanced. -/
def JoinedApart (os : List Occurrence) (i j : Nat) : Prop :=
  ∃ o c, os[i]? = some o ∧ os[j]? = some c ∧ o.role = .opening ∧ c.role = .closing ∧
    i < j ∧ o.pair = c.pair ∧ Balanced (part o.pair ((os.take j).drop (i + 1)))

section

variable {p : PairId} {os : List Occurrence} {i j n : Nat} {o c : Occurrence}

/-- The place of an occurrence among those of its pair. -/
def placeOf (p : PairId) (os : List Occurrence) (n : Nat) : Nat :=
  rank (fun o => decide (o.pair = p)) os n

theorem getElem?_placeOf (present : os[n]? = some o) (pair : o.pair = p) :
    (part p os)[placeOf p os n]? = some o :=
  getElem?_rank present (by simp [pair])

theorem opensPair_iff : OpensPair p os i ↔
    Passes (fun o => decide (o.pair = p)) os i ∧ OpensAt (part p os) (placeOf p os i) := by
  constructor
  · rintro ⟨o, present, role, pair⟩
    exact ⟨⟨o, present, by simp [pair]⟩, o, getElem?_placeOf present pair, role⟩
  · rintro ⟨⟨o, present, pair⟩, o', present', role⟩
    have same := present'.symm.trans (getElem?_placeOf present (by simpa using pair))
    cases same
    exact ⟨o, present, role, by simpa using pair⟩

theorem joinedApart_iff (first : os[i]? = some o) (pair : o.pair = p) :
    JoinedApart os i j ↔ Passes (fun o => decide (o.pair = p)) os j ∧
      Joined (part p os) (placeOf p os i) (placeOf p os j) := by
  subst pair
  have passes : Passes (fun o' => decide (o'.pair = o.pair)) os i := ⟨o, first, by simp⟩
  have here := getElem?_placeOf first rfl
  have between : i < j → (((part o.pair os).take (placeOf o.pair os j)).drop
      (placeOf o.pair os i + 1)) = part o.pair ((os.take j).drop (i + 1)) :=
    take_drop_filter_rank passes
  constructor
  · rintro ⟨o', c, first', second, opening, closing, before, same, balanced⟩
    cases first.symm.trans first'
    refine ⟨⟨c, second, by simp [same]⟩, o, c, here, getElem?_placeOf second same.symm, opening,
      closing, rank_lt passes before, same, ?_⟩
    rw [between before]
    exact (settled_iff_balanced pair_of_mem_part).mpr balanced
  · rintro ⟨⟨c, second, same⟩, o', c', first', second', opening, closing, before, -, settled⟩
    have paired : c.pair = o.pair := by simpa using same
    cases first'.symm.trans here
    cases second'.symm.trans (getElem?_placeOf second paired)
    have inside : i < j := by
      by_contra behind
      exact Nat.not_le_of_lt before (rank_le (Nat.le_of_not_lt behind))
    rw [between inside] at settled
    exact ⟨o, c, first, second, opening, closing, inside, paired.symm,
      (settled_iff_balanced pair_of_mem_part).mp settled⟩

/-- Every opening that is joined within a pair stands somewhere in the whole sequence. -/
theorem exists_joinedApart (second : os[j]? = some c) (pair : c.pair = p) {k : Nat}
    (joined : Joined (part p os) k (placeOf p os j)) :
    ∃ i, placeOf p os i = k ∧ OpensPair p os i ∧ JoinedApart os i j := by
  obtain ⟨o, -, here, -, role, -, inside, -⟩ := id joined
  obtain ⟨i, passes, rfl⟩ :=
    Measures.exists_kept_of_lt rank_zero (fun _ => rank_succ) (fun _ => rank_succ_of_not) inside
  obtain ⟨o', first, pair'⟩ := id passes
  have paired : o'.pair = p := by simpa using pair'
  exact ⟨i, rfl, opensPair_iff.mpr ⟨passes, o, here, role⟩,
    (joinedApart_iff first paired).mpr ⟨⟨c, second, by simp [pair]⟩, joined⟩⟩

end

namespace Settings

variable {s : Settings} {os : List Occurrence} {i j n : Nat} {o c : Occurrence} {d : PairDefinition}
  {p : PairId}

theorem knows_part (known : ∀ o ∈ os, s.Knows o.pair) (p : PairId) :
    ∀ o ∈ part p os, s.byDepth.Knows o.pair :=
  fun o membership => known o (List.mem_of_mem_filter membership)

/-- The depth of a place within a pair is the depth of the place that it has in that pair alone. -/
theorem ncard_unanswered_pair (known : ∀ o ∈ os, s.Knows o.pair) (p : PairId) (n : Nat) :
    (unanswered (OpensPair p os) (JoinedApart os) n).ncard =
      s.byDepth.cycleIndex (part p os) (placeOf p os n) := by
  have measures := measures_size (s := s.byDepth) rfl (knows_part known p)
  have along := measures.along (r := placeOf p os) rank_zero (fun _ => rank_succ)
    (fun _ => rank_succ_of_not)
  have same : s.byDepth.cycleIndex (part p os) (placeOf p os n) =
      (unanswered (OpensAt (part p os)) (Joined (part p os)) (placeOf p os n)).ncard := rfl
  rw [same, measures.ncard_unanswered, ← along.ncard_unanswered n]
  congr 1
  refine unanswered_congr (fun i => opensPair_iff) ?_
  rintro i j ⟨o, first, role, pair⟩
  rw [joinedApart_iff first pair]
  exact (and_iff_right ⟨o, first, by simp [pair]⟩).symm

theorem getElem?_matchAll_start (mode : s.mode = .independent) (known : ∀ o ∈ os, s.Knows o.pair)
    (present : os[j]? = some o) :
    (s.matchAll (.start s) os).1[j]? =
      (s.byDepth.matchAll (.start s.byDepth) (part o.pair os)).1[placeOf o.pair os j]? := by
  obtain ⟨d, pair, -⟩ := known o (List.mem_of_getElem? present)
  have all : (s.matchAll (.start s) os).1.map (·.occurrence) = os := occurrences_matchAll known
  rw [← filter_matchAll_start mode known (List.getElem?_eq_some_iff.mp pair).1]
  generalize (s.matchAll (.start s) os).1 = recorded at all
  subst all
  rw [List.getElem?_map] at present
  obtain ⟨c, here, rfl⟩ := Option.map_eq_some_iff.mp present
  have place : placeOf c.occurrence.pair (recorded.map (·.occurrence)) j =
      rank (fun c' => decide (c'.occurrence.pair = c.occurrence.pair)) recorded j := by
    rw [placeOf, rank, rank, ← List.map_take, List.countP_map]
    rfl
  rw [place, getElem?_rank here (by simp), here]

theorem statusAt_matchAll_start (mode : s.mode = .independent) (known : ∀ o ∈ os, s.Knows o.pair)
    (present : os[j]? = some o) :
    statusAt (s.matchAll (.start s) os).1 j =
      statusAt (s.byDepth.matchAll (.start s.byDepth) (part o.pair os)).1
        (placeOf o.pair os j) := by
  rw [statusAt, statusAt, getElem?_matchAll_start mode known present]

theorem colorAt_matchAll_start (mode : s.mode = .independent) (known : ∀ o ∈ os, s.Knows o.pair)
    (present : os[j]? = some o) :
    colorAt (s.matchAll (.start s) os).1 j =
      colorAt (s.byDepth.matchAll (.start s.byDepth) (part o.pair os)).1
        (placeOf o.pair os j) := by
  rw [colorAt, colorAt, getElem?_matchAll_start mode known present]

theorem matched_iff_exists_joinedApart (mode : s.mode = .independent)
    (known : ∀ o ∈ os, s.Knows o.pair) (second : os[j]? = some c) {r : Range} :
    statusAt (s.matchAll (.start s) os).1 j = some (.matched r) ↔
      ∃ i o, os[i]? = some o ∧ o.range = r ∧ JoinedApart os i j := by
  rw [statusAt_matchAll_start mode known second,
    matched_iff_exists_joined (s := s.byDepth) rfl (knows_part known c.pair)]
  constructor
  · rintro ⟨k, o, here, place, joined⟩
    obtain ⟨i, rfl, ⟨o', first, -, pair⟩, apart⟩ := exists_joinedApart second rfl joined
    cases here.symm.trans (getElem?_placeOf first pair)
    exact ⟨i, o, first, place, apart⟩
  · rintro ⟨i, o, first, place, apart⟩
    obtain ⟨o', c', first', second', -, -, -, same, -⟩ := id apart
    cases first.symm.trans first'
    cases second.symm.trans second'
    exact ⟨placeOf c.pair os i, o, getElem?_placeOf first same, place,
      ((joinedApart_iff first same).mp apart).2⟩

theorem orphan_iff_not_joinedApart (mode : s.mode = .independent)
    (known : ∀ o ∈ os, s.Knows o.pair) (second : os[j]? = some c) (closing : c.role = .closing) :
    statusAt (s.matchAll (.start s) os).1 j = some .orphan ↔ ∀ i, ¬ JoinedApart os i j := by
  rw [statusAt_matchAll_start mode known second, orphan_iff_not_joined (s := s.byDepth) rfl
    (knows_part known c.pair) (getElem?_placeOf second rfl) closing]
  constructor
  · rintro alone i apart
    obtain ⟨o, c', first, second', -, -, -, same, -⟩ := id apart
    cases second.symm.trans second'
    exact alone _ ((joinedApart_iff first same).mp apart).2
  · rintro alone k joined
    obtain ⟨i, -, -, apart⟩ := exists_joinedApart second rfl joined
    exact alone i apart

theorem colorAt_opening_apart (mode : s.mode = .independent) (known : ∀ o ∈ os, s.Knows o.pair)
    (present : os[i]? = some o) (role : o.role = .opening) (pair : s.pair? o.pair = some d) :
    colorAt (s.matchAll (.start s) os).1 i =
      some (d.palette.colorAt (unanswered (OpensPair o.pair os) (JoinedApart os) i).ncard) := by
  rw [colorAt_matchAll_start mode known present, ncard_unanswered_pair known]
  exact colorAt_opening (s := s.byDepth) rfl (knows_part known o.pair)
    (getElem?_placeOf present rfl) role pair

theorem colorAt_of_joinedApart (mode : s.mode = .independent) (known : ∀ o ∈ os, s.Knows o.pair)
    (apart : JoinedApart os i j) :
    colorAt (s.matchAll (.start s) os).1 j = colorAt (s.matchAll (.start s) os).1 i := by
  obtain ⟨o, c, first, second, -, -, -, same, -⟩ := id apart
  rw [colorAt_matchAll_start mode known first, colorAt_matchAll_start mode known second, ← same]
  exact colorAt_of_joined (s := s.byDepth) rfl (knows_part known o.pair)
    ((joinedApart_iff first rfl).mp apart).2

/-- With a pile for each pair the flags of consecutive mode do not matter. -/
theorem matchAll_perPair {t : Settings} (pairs : t.pairs = s.pairs)
    (piles : List (List StackEntry)) :
    t.matchAll (.perPair piles) os = s.matchAll (.perPair piles) os := by
  induction os generalizing piles with
  | nil => rfl
  | cons o rest ih =>
    have same : t.pair? o.pair = s.pair? o.pair := by rw [pair?, pairs, pair?]
    simp only [matchAll, same]
    cases s.pair? o.pair with
    | none => exact ih piles
    | some d => simp only [matchNext, ih]

theorem matchNext_orphan_color {stack : MatchStack}
    (orphan : (s.matchNext d o stack).2.1 = .orphan) : (s.matchNext d o stack).1 = d.orphan := by
  cases stack with
  | shared es opened =>
    unfold matchNext matchShared at orphan ⊢
    cases role : o.role with
    | opening => simp [role] at orphan
    | closing =>
      cases es with
      | nil => rfl
      | cons e rest => by_cases same : e.pair = d.id <;> simp_all
  | perPair piles =>
    unfold matchNext matchOwn at orphan ⊢
    cases role : o.role with
    | opening => simp [role] at orphan
    | closing => cases pile : piles[d.id]?.getD [] <;> simp_all

theorem colorAt_of_orphan (known : ∀ o ∈ os, s.Knows o.pair) (present : os[j]? = some c)
    (pair : s.pair? c.pair = some d) {stack : MatchStack}
    (orphan : statusAt (s.matchAll stack os).1 j = some .orphan) :
    colorAt (s.matchAll stack os).1 j = some d.orphan := by
  rw [statusAt, getElem?_matchAll known present pair] at orphan
  rw [colorAt, getElem?_matchAll known present pair]
  exact congrArg some (matchNext_orphan_color (Option.some.inj orphan))

theorem matchAll_part_self (mode : s.mode = .independent) (known : ∀ o ∈ os, s.Knows o.pair)
    (paired : p < s.pairs.length) :
    (s.matchAll (.start s) os).1.filter (fun c => c.occurrence.pair = p) =
      (s.matchAll (.start s) (part p os)).1 := by
  have knownPart : ∀ o ∈ part p os, s.Knows o.pair := knows_part known p
  have own : ∀ c ∈ (s.matchAll (.start s) (part p os)).1, c.occurrence.pair = p := fun c recorded =>
    pair_of_mem_part _ (occurrence_mem_of_mem_matchAll knownPart recorded)
  have again : part p (part p os) = part p os := List.filter_eq_self.mpr (by simp [part])
  calc (s.matchAll (.start s) os).1.filter (fun c => c.occurrence.pair = p)
    _ = (s.byDepth.matchAll (.start s.byDepth) (part p os)).1 :=
        filter_matchAll_start mode known paired
    _ = (s.byDepth.matchAll (.start s.byDepth) (part p (part p os))).1 := by rw [again]
    _ = (s.matchAll (.start s) (part p os)).1.filter (fun c => c.occurrence.pair = p) :=
        (filter_matchAll_start mode knownPart paired).symm
    _ = (s.matchAll (.start s) (part p os)).1 := List.filter_eq_self.mpr (by simpa using own)

end Settings

/-- What becomes of brackets when each pair is matched on its own, read off the document. -/
structure MatchesApart (s : Settings) (os : List Occurrence) (recorded : List ColoredOccurrence) :
    Prop where
  all : recorded.map (·.occurrence) = os
  matched : ∀ i j o c, os[i]? = some o → os[j]? = some c → o.role = .opening → c.role = .closing →
    (statusAt recorded j = some (.matched o.range) ↔
      i < j ∧ o.pair = c.pair ∧ Balanced (part o.pair ((os.take j).drop (i + 1))))
  alone : ∀ j c d, os[j]? = some c → c.role = .closing → s.pair? c.pair = some d →
    (∀ i, ¬ JoinedApart os i j) →
    statusAt recorded j = some .orphan ∧ colorAt recorded j = some d.orphan
  opening : ∀ i o d, os[i]? = some o → o.role = .opening → s.pair? o.pair = some d →
    colorAt recorded i =
      d.palette.toList[(unanswered (OpensPair o.pair os) (JoinedApart os) i).ncard %
        d.palette.size]?
  closing : ∀ i j, JoinedApart os i j → colorAt recorded j = colorAt recorded i

namespace Settings

variable {s : Settings} {os : List Occurrence}

theorem matchesApart_matchAll (mode : s.mode = .independent) (known : ∀ o ∈ os, s.Knows o.pair)
    (distinct : (os.map (·.range)).Nodup) : MatchesApart s os (s.matchAll (.start s) os).1 := by
  constructor
  case all => exact occurrences_matchAll known
  case matched =>
    intro i j o c first second opening closing
    rw [matched_iff_exists_joinedApart mode known second]
    constructor
    · rintro ⟨i', o', first', place, apart⟩
      obtain rfl : i' = i := index_eq_of_range distinct first' first place
      obtain ⟨o', c', first', second', -, -, before, same, balanced⟩ := apart
      cases first.symm.trans first'
      cases second.symm.trans second'
      exact ⟨before, same, balanced⟩
    · rintro ⟨before, same, balanced⟩
      exact ⟨i, o, first, rfl, o, c, first, second, opening, closing, before, same, balanced⟩
  case alone =>
    intro j c d second closing pair apart
    have orphan := (orphan_iff_not_joinedApart mode known second closing).mpr apart
    exact ⟨orphan, colorAt_of_orphan known second pair orphan⟩
  case opening =>
    intro i o d present role pair
    rw [colorAt_opening_apart mode known present role pair, d.palette.getElem?_mod]
  case closing => exact fun i j => colorAt_of_joinedApart mode known

/-- In independent mode every pair is matched on its own: what is recorded of it is what its
occurrences alone would give, and the flags of consecutive mode do not matter. -/
theorem pairs_match_apart (mode : s.mode = .independent) (known : ∀ o ∈ os, s.Knows o.pair)
    (ordered : os.Pairwise fun a b => a.line ≤ b.line) (distinct : (os.map (·.range)).Nodup) :
    let recorded := ((LineCache.forSettings s).processAll s os).occurrences
    MatchesApart s os recorded ∧
      (∀ p, s.Knows p → recorded.filter (fun c => c.occurrence.pair = p) =
        ((LineCache.forSettings s).processAll s (part p os)).occurrences) ∧
      ∀ unique cycle,
        let t : Settings := { s with uniqueOpening := unique, cycleOpenings := cycle }
        ((LineCache.forSettings t).processAll t os).occurrences = recorded := by
  intro recorded
  have run : recorded = (s.matchAll (.start s) os).1 := LineCache.occurrences_processAll ordered
  refine ⟨run ▸ matchesApart_matchAll mode known distinct, ?_, ?_⟩
  · rintro p ⟨d, pair, -⟩
    have orderedPart : (part p os).Pairwise fun a b => a.line ≤ b.line := ordered.filter _
    rw [run, LineCache.occurrences_processAll orderedPart]
    exact matchAll_part_self mode known (List.getElem?_eq_some_iff.mp pair).1
  · intro unique cycle t
    have start : MatchStack.start t = MatchStack.start s := rfl
    rw [LineCache.occurrences_processAll ordered, run, start, MatchStack.start_of_independent mode]
    exact congrArg Prod.fst (matchAll_perPair (s := s) (t := t) rfl _)

theorem pairs_match_apart_crossed :
    let s : Settings :=
      { mode := .independent
        pairs := [⟨0, "(", ")", ⟨⟨"Gold"⟩, [⟨"Orchid"⟩]⟩, ⟨"Red"⟩⟩,
          ⟨1, "[", "]", ⟨⟨"Blue"⟩, []⟩, ⟨"Gray"⟩⟩] }
    let mark (line column : Nat) (literal : String) (pair : PairId) (role : Role) : Occurrence :=
      ⟨⟨⟨line, column⟩, ⟨line, column + 1⟩⟩, literal, pair, role⟩
    let os := [mark 0 0 "(" 0 .opening, mark 0 1 "[" 1 .opening, mark 1 0 ")" 0 .closing,
      mark 1 1 "]" 1 .closing, mark 1 2 ")" 0 .closing]
    let recorded := ((LineCache.forSettings s).processAll s os).occurrences
    (∀ o ∈ os, s.Knows o.pair) ∧ (os.Pairwise fun a b => a.line ≤ b.line) ∧
      (os.map (·.range)).Nodup ∧ MatchesApart s os recorded ∧
      statusAt recorded 2 = some (.matched ⟨⟨0, 0⟩, ⟨0, 1⟩⟩) ∧
      recorded.filter (fun c => c.occurrence.pair = 1) =
        ((LineCache.forSettings s).processAll s (part 1 os)).occurrences := by
  intro s mark os recorded
  have known : ∀ o ∈ os, s.Knows o.pair := by decide
  have ordered : os.Pairwise fun a b => a.line ≤ b.line := by decide
  have distinct : (os.map (·.range)).Nodup := by decide
  obtain ⟨apart, own, -⟩ := pairs_match_apart (s := s) rfl known ordered distinct
  refine ⟨known, ordered, distinct, apart, ?_, own 1 ⟨_, rfl, rfl⟩⟩
  exact (apart.matched 0 2 _ _ rfl rfl rfl rfl).mpr ⟨by decide, rfl, .nil⟩

end Settings

end BracketColoring

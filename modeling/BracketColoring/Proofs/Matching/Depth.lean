import BracketColoring.Proofs.Matching.Nesting
import Mathlib.Data.Set.Card

/-!
# How deep a place is

The depth of a place can be read off the stack there, or off the document: it is the number of
openings before the place that are joined with no closing before it. `Measures` says what a depth
has to do at each occurrence to be that number (`ncard_unanswered`), and the size of a shared stack
does it (`measures_size`), since an opening stays on the stack until its own closing comes
(`Settled.matchAll_take`).
-/

namespace BracketColoring

/-- There is an opening at an index. -/
def OpensAt (os : List Occurrence) (i : Nat) : Prop := ∃ o, os[i]? = some o ∧ o.role = .opening

/-- How many openings there are. -/
def openings (os : List Occurrence) : Nat := os.countP fun o => o.role = .opening

def closings (os : List Occurrence) : Nat := os.countP fun o => o.role = .closing

@[simp] theorem openings_nil : openings [] = 0 := rfl

@[simp] theorem closings_nil : closings [] = 0 := rfl

@[simp] theorem openings_append (a b : List Occurrence) :
    openings (a ++ b) = openings a + openings b :=
  List.countP_append

@[simp] theorem closings_append (a b : List Occurrence) :
    closings (a ++ b) = closings a + closings b :=
  List.countP_append

theorem openings_cons (o : Occurrence) (os : List Occurrence) :
    openings (o :: os) = if o.role = .opening then openings os + 1 else openings os := by
  cases role : o.role <;> simp [openings, role]

theorem closings_cons (o : Occurrence) (os : List Occurrence) :
    closings (o :: os) = if o.role = .opening then closings os else closings os + 1 := by
  cases role : o.role <;> simp [closings, role]

/-- The openings before an index that are joined with no closing before it. -/
def unanswered (opens : Nat → Prop) (joined : Nat → Nat → Prop) (n : Nat) : Set Nat :=
  {i | i < n ∧ opens i ∧ ∀ j < n, ¬ joined i j}

theorem unanswered_congr {opens opens' : Nat → Prop} {joined joined' : Nat → Nat → Prop} {n : Nat}
    (same : ∀ i, opens i ↔ opens' i) (alike : ∀ i j, opens i → (joined i j ↔ joined' i j)) :
    unanswered opens joined n = unanswered opens' joined' n := by
  ext i
  constructor
  · rintro ⟨before, opening, alone⟩
    exact ⟨before, (same i).mp opening, fun j below => (alike i j opening).not.mp (alone j below)⟩
  · rintro ⟨before, opening, alone⟩
    have opened := (same i).mpr opening
    exact ⟨before, opened, fun j below => (alike i j opened).not.mpr (alone j below)⟩

/-- A depth that rises at openings, and at a closing falls back to where its opening found it; in
between it stays higher. -/
structure Measures (opens : Nat → Prop) (joined : Nat → Nat → Prop) (depth : Nat → Nat) : Prop where
  start : depth 0 = 0
  rises : ∀ n, opens n → depth (n + 1) = depth n + 1
  stays : ∀ n, ¬ opens n → (∀ i, ¬ joined i n) → depth (n + 1) = depth n
  opens : ∀ i j, joined i j → opens i ∧ i < j
  falls : ∀ i j, joined i j → depth j = depth i + 1 ∧ depth (j + 1) = depth i
  above : ∀ i j, joined i j → ∀ n, i < n → n ≤ j → depth i < depth n

namespace Measures

variable {opens : Nat → Prop} {joined : Nat → Nat → Prop} {depth : Nat → Nat}

/-- A closing is joined with one opening only. -/
theorem opening_unique (measures : Measures opens joined depth) {i i' j : Nat} (first : joined i j)
    (second : joined i' j) : i = i' := by
  have back := (measures.falls i j first).2
  have back' := (measures.falls i' j second).2
  have inside := (measures.opens i j first).2
  have inside' := (measures.opens i' j second).2
  rcases Nat.lt_trichotomy i i' with before | same | behind
  · have := measures.above i j first i' before (Nat.le_of_lt inside')
    omega
  · exact same
  · have := measures.above i' j second i behind (Nat.le_of_lt inside)
    omega

/-- An opening is joined with one closing only. -/
theorem closing_unique (measures : Measures opens joined depth) {i j j' : Nat} (first : joined i j)
    (second : joined i j') : j = j' := by
  have back := (measures.falls i j first).2
  have back' := (measures.falls i j' second).2
  have inside := (measures.opens i j first).2
  have inside' := (measures.opens i j' second).2
  rcases Nat.lt_trichotomy j j' with before | same | behind
  · have := measures.above i j' second (j + 1) (by omega) before
    omega
  · exact same
  · have := measures.above i j first (j' + 1) (by omega) behind
    omega

/-- What opens between an opening and its closing is closed before that closing. -/
theorem closing_lt (measures : Measures opens joined depth) {i j i' j' : Nat} (outer : joined i j)
    (inner : joined i' j') (above : i < i') (below : i' < j) : j' < j := by
  have back := (measures.falls i j outer).2
  have back' := (measures.falls i' j' inner).2
  have higher := measures.above i j outer i' above (Nat.le_of_lt below)
  rcases Nat.lt_trichotomy j' j with inside | same | crossed
  · exact inside
  · subst same
    omega
  · have := measures.above i' j' inner (j + 1) (by omega) crossed
    omega

theorem unanswered_opening (measures : Measures opens joined depth) {n : Nat} (opening : opens n) :
    unanswered opens joined (n + 1) = insert n (unanswered opens joined n) := by
  have notClosing : ∀ i, ¬ joined i n := by
    intro i closed
    have rises := measures.rises n opening
    have falls := measures.falls i n closed
    omega
  ext i
  constructor
  · rintro ⟨before, opened, alone⟩
    rcases Nat.lt_succ_iff_lt_or_eq.mp before with inside | rfl
    · exact .inr ⟨inside, opened, fun j below => alone j (Nat.lt_succ_of_lt below)⟩
    · exact .inl rfl
  · rintro (rfl | ⟨inside, opened, alone⟩)
    · refine ⟨Nat.lt_succ_self i, opening, ?_⟩
      intro j below closed
      have := (measures.opens i j closed).2
      omega
    · refine ⟨Nat.lt_succ_of_lt inside, opened, ?_⟩
      intro j below
      rcases Nat.lt_succ_iff_lt_or_eq.mp below with earlier | rfl
      · exact alone j earlier
      · exact notClosing i

theorem unanswered_closing (measures : Measures opens joined depth) {i n : Nat}
    (closed : joined i n) (notOpening : ¬ opens n) :
    unanswered opens joined n = insert i (unanswered opens joined (n + 1)) := by
  obtain ⟨opening, inside⟩ := measures.opens i n closed
  ext i'
  constructor
  · rintro ⟨before, opened, alone⟩
    by_cases here : i' = i
    · exact .inl here
    · refine .inr ⟨Nat.lt_succ_of_lt before, opened, ?_⟩
      intro j below closed'
      rcases Nat.lt_succ_iff_lt_or_eq.mp below with earlier | rfl
      · exact alone j earlier closed'
      · exact here (measures.opening_unique closed' closed)
  · rintro (rfl | ⟨before, opened, alone⟩)
    · refine ⟨inside, opening, ?_⟩
      intro j below closed'
      exact absurd (measures.closing_unique closed' closed) (Nat.ne_of_lt below)
    · refine ⟨?_, opened, fun j below => alone j (Nat.lt_succ_of_lt below)⟩
      rcases Nat.lt_succ_iff_lt_or_eq.mp before with earlier | rfl
      · exact earlier
      · exact absurd opened notOpening

theorem unanswered_stray {n : Nat} (notOpening : ¬ opens n) (alone : ∀ i, ¬ joined i n) :
    unanswered opens joined (n + 1) = unanswered opens joined n := by
  ext i
  constructor
  · rintro ⟨before, opened, rest⟩
    refine ⟨?_, opened, fun j below => rest j (Nat.lt_succ_of_lt below)⟩
    rcases Nat.lt_succ_iff_lt_or_eq.mp before with earlier | rfl
    · exact earlier
    · exact absurd opened notOpening
  · rintro ⟨before, opened, rest⟩
    refine ⟨Nat.lt_succ_of_lt before, opened, ?_⟩
    intro j below
    rcases Nat.lt_succ_iff_lt_or_eq.mp below with earlier | rfl
    · exact rest j earlier
    · exact alone i

theorem ncard_unanswered (measures : Measures opens joined depth) (n : Nat) :
    (unanswered opens joined n).ncard = depth n := by
  have finite : ∀ n, (unanswered opens joined n).Finite := fun n =>
    (Set.finite_lt_nat n).subset fun _ member => member.1
  induction n with
  | zero =>
    have empty : unanswered opens joined 0 = ∅ :=
      Set.eq_empty_of_forall_notMem fun i member => Nat.not_lt_zero i member.1
    rw [empty, Set.ncard_empty, measures.start]
  | succ n ih =>
    by_cases opening : opens n
    · have fresh : n ∉ unanswered opens joined n := fun member => Nat.lt_irrefl n member.1
      rw [measures.unanswered_opening opening, Set.ncard_insert_of_notMem fresh (finite n), ih,
        measures.rises n opening]
    · by_cases closing : ∃ i, joined i n
      · obtain ⟨i, closed⟩ := closing
        have answered : i ∉ unanswered opens joined (n + 1) := fun member =>
          member.2.2 n (Nat.lt_succ_self n) closed
        rw [measures.unanswered_closing closed opening,
          Set.ncard_insert_of_notMem answered (finite (n + 1))] at ih
        have falls := measures.falls i n closed
        omega
      · have alone : ∀ i, ¬ joined i n := fun i closed => closing ⟨i, closed⟩
        rw [unanswered_stray opening alone, ih, measures.stays n opening alone]

/-! A depth in a part of a sequence, counted along the whole sequence. -/

section

variable {kept : Nat → Prop} {r : Nat → Nat}

theorem exists_kept_of_lt (start : r 0 = 0) (step : ∀ n, kept n → r (n + 1) = r n + 1)
    (skip : ∀ n, ¬ kept n → r (n + 1) = r n) {k n : Nat} (inside : k < r n) :
    ∃ i, kept i ∧ r i = k := by
  induction n with
  | zero => omega
  | succ n ih =>
    by_cases here : kept n
    · rw [step n here] at inside
      rcases Nat.lt_succ_iff_lt_or_eq.mp inside with before | rfl
      · exact ih before
      · exact ⟨n, here, rfl⟩
    · exact ih (skip n here ▸ inside)

theorem along (measures : Measures opens joined depth) (start : r 0 = 0)
    (step : ∀ n, kept n → r (n + 1) = r n + 1) (skip : ∀ n, ¬ kept n → r (n + 1) = r n) :
    Measures (fun n => kept n ∧ opens (r n)) (fun i j => kept i ∧ kept j ∧ joined (r i) (r j))
      fun n => depth (r n) := by
  have monotone : Monotone r := monotone_nat_of_le_succ fun n => by
    by_cases here : kept n
    · exact step n here ▸ Nat.le_succ (r n)
    · exact (skip n here).ge
  constructor
  case start => simpa [start] using measures.start
  case rises =>
    rintro n ⟨here, opening⟩
    exact step n here ▸ measures.rises (r n) opening
  case stays =>
    intro n notOpening alone
    by_cases here : kept n
    · refine step n here ▸ measures.stays (r n) (fun opening => notOpening ⟨here, opening⟩) ?_
      intro k closed
      obtain ⟨i, there, rfl⟩ := exists_kept_of_lt start step skip (measures.opens k (r n) closed).2
      exact alone i ⟨there, here, closed⟩
    · rw [skip n here]
  case opens =>
    rintro i j ⟨here, -, closed⟩
    obtain ⟨opening, before⟩ := measures.opens (r i) (r j) closed
    exact ⟨⟨here, opening⟩, monotone.reflect_lt before⟩
  case falls =>
    rintro i j ⟨-, there, closed⟩
    exact step j there ▸ measures.falls (r i) (r j) closed
  case above =>
    rintro i j ⟨here, -, closed⟩ n above below
    have after : r (i + 1) ≤ r n := monotone above
    rw [step i here] at after
    exact measures.above (r i) (r j) closed (r n) after (monotone below)

end

end Measures

/-! ## The stack before an occurrence -/

namespace Settings

variable {s : Settings} {os : List Occurrence} {i j n : Nat} {o : Occurrence} {d : PairDefinition}

/-- A shared stack counts the openings that it has met. -/
theorem exists_shared_stackAt (mode : s.mode = .consecutive) (known : ∀ o ∈ os, s.Knows o.pair)
    (n : Nat) :
    ∃ es, s.stackAt os n = .shared es (openings (os.take n)) := by
  induction n with
  | zero => exact ⟨[], MatchStack.start_of_consecutive mode⟩
  | succ n ih =>
    obtain ⟨es, before⟩ := ih
    cases present : os[n]? with
    | none =>
      rw [stackAt_succ_of_none present, before, List.take_add_one, present, Option.toList_none,
        List.append_nil]
      exact ⟨es, rfl⟩
    | some o =>
      obtain ⟨d, pair, -⟩ := known o (List.mem_of_getElem? present)
      rw [stackAt_succ present pair, before, List.take_add_one, present, Option.toList_some,
        openings_append, openings_cons, openings_nil]
      simp only [matchNext, matchShared]
      cases role : o.role with
      | opening => exact ⟨_, rfl⟩
      | closing =>
        cases es with
        | nil => exact ⟨[], rfl⟩
        | cons e rest =>
          by_cases same : e.pair = d.id
          · exact ⟨rest, by simp [same]⟩
          · exact ⟨e :: rest, by simp [same]⟩

end Settings

/-- At every place inside of a settled sequence the waiting openings are still on the stack. -/
theorem Settled.matchAll_take {s : Settings} {pair : PairId} {os : List Occurrence}
    (settled : Settled pair os) (known : ∀ o ∈ os, s.Knows o.pair) {e : StackEntry}
    (top : e.pair = pair) (below : List StackEntry) (opened n : Nat) :
    ∃ above opened', (s.matchAll (.shared (e :: below) opened) (os.take n)).2 =
      .shared (above ++ e :: below) opened' := by
  induction settled generalizing e below opened n with
  | nil =>
    rw [List.take_nil]
    exact ⟨[], opened, rfl⟩
  | @stray pair c rest role other _ ih =>
    cases n with
    | zero => exact ⟨[], opened, rfl⟩
    | succ n =>
      obtain ⟨d, present, numbered⟩ := known c List.mem_cons_self
      have apart : ¬ e.pair = d.id := by
        rw [top, numbered]
        exact Ne.symm other
      have knownRest : ∀ o ∈ rest, s.Knows o.pair := fun o membership =>
        known o (List.mem_cons_of_mem c membership)
      have left := ih knownRest top below opened n
      simpa [Settings.matchAll, present, Settings.matchNext, Settings.matchShared, role, apart]
        using left
  | @nested pair o c inner rest opening closing same settled _ ihInner ihRest =>
    cases n with
    | zero => exact ⟨[], opened, rfl⟩
    | succ n =>
      obtain ⟨d, present, numbered⟩ := known o (by simp)
      have knownInner : ∀ o' ∈ inner, s.Knows o'.pair := fun o' membership =>
        known o' (by simp [membership])
      have knownRest : ∀ o' ∈ rest, s.Knows o'.pair := fun o' membership =>
        known o' (by simp [membership])
      let pushed : StackEntry := ⟨d.id, s.sharedColor d (below.length + 1) opened, o.range⟩
      have first : (s.matchAll (.shared (e :: below) opened)
          ((o :: inner ++ c :: rest).take (n + 1))).2 =
          (s.matchAll (.shared (pushed :: e :: below) (opened + 1))
            ((inner ++ c :: rest).take n)).2 := by
        simp [Settings.matchAll, present, Settings.matchNext, Settings.matchShared, opening, pushed]
      rw [first, List.take_append]
      by_cases within : n ≤ inner.length
      · obtain ⟨above, opened', inside⟩ :=
          ihInner knownInner (e := pushed) numbered (e :: below) (opened + 1) n
        rw [Nat.sub_eq_zero_of_le within, List.take_zero, List.append_nil, inside]
        exact ⟨above ++ [pushed], opened', by simp⟩
      · -- The inner sequence is over, and its closing has come.
        obtain ⟨more, enough⟩ : ∃ more, n - inner.length = more + 1 :=
          ⟨n - inner.length - 1, by omega⟩
        obtain ⟨opened', inside⟩ :=
          settled.matchAll knownInner (e := pushed) numbered (e :: below) (opened + 1)
        obtain ⟨above, opened'', after⟩ := ihRest knownRest top below opened' more
        have closes : s.pair? c.pair = some d := same ▸ present
        rw [List.take_of_length_le (by omega), enough, List.take_succ_cons,
          Settings.matchAll_append, inside]
        refine ⟨above, opened'', ?_⟩
        simpa [Settings.matchAll, closes, Settings.matchNext, Settings.matchShared, closing, pushed]
          using after

namespace Settings

variable {s : Settings} {os : List Occurrence} {i j : Nat} {o : Occurrence} {d : PairDefinition}

/-- From behind an opening up to the closing that it is joined with, the opening and what waits
below it stay on the stack. -/
theorem stackAt_between (known : ∀ o ∈ os, s.Knows o.pair) (first : os[i]? = some o)
    (pair : s.pair? o.pair = some d) (joined : Joined os i j) {es : List StackEntry} {opened : Nat}
    (before : s.stackAt os i = .shared es opened) {n : Nat} (above : i < n) (below : n ≤ j) :
    ∃ waiting opened', s.stackAt os n =
      .shared (waiting ++ ⟨d.id, s.sharedColor d es.length opened, o.range⟩ :: es) opened' := by
  obtain ⟨o', c, first', second, opening, closing, inside, same, settled⟩ := joined
  obtain rfl : o = o' := Option.some.inj (first.symm.trans first')
  have numbered : d.id = o.pair := (known o (List.mem_of_getElem? first)).id_eq pair
  let e : StackEntry := ⟨d.id, s.sharedColor d es.length opened, o.range⟩
  have knownBetween : ∀ o ∈ (os.take j).drop (i + 1), s.Knows o.pair := fun o membership =>
    knows_take known j o (List.mem_of_mem_drop membership)
  have between : (os.take n).drop (i + 1) = ((os.take j).drop (i + 1)).take (n - (i + 1)) := by
    rw [List.take_drop, Nat.add_sub_cancel' above, List.take_take, Nat.min_eq_left below]
  obtain ⟨waiting, opened', stack⟩ :=
    settled.matchAll_take knownBetween (e := e) numbered es (opened + 1) (n - (i + 1))
  refine ⟨waiting, opened', ?_⟩
  rw [stackAt_of_le above, stackAt_opening first pair opening before, between, stack]

theorem stackAt_succ_of_joined (mode : s.mode = .consecutive) (known : ∀ o ∈ os, s.Knows o.pair)
    (joined : Joined os i j) :
    (s.stackAt os (j + 1)).size = (s.stackAt os i).size ∧
      (s.stackAt os j).size = (s.stackAt os i).size + 1 := by
  obtain ⟨o, c, first, second, opening, closing, -, same, -⟩ := id joined
  obtain ⟨d, pair, numbered⟩ := known o (List.mem_of_getElem? first)
  obtain ⟨es, before⟩ := exists_shared_stackAt mode known i
  obtain ⟨opened, reached⟩ := stackAt_of_joined known first pair joined before
  rw [stackAt_succ second (same ▸ pair), reached, before]
  simp [matchNext, matchShared, closing, MatchStack.size]

/-- The size of a shared stack is a measure of depth. -/
theorem measures_size (mode : s.mode = .consecutive) (known : ∀ o ∈ os, s.Knows o.pair) :
    Measures (OpensAt os) (Joined os) fun n => (s.stackAt os n).size := by
  constructor
  case start => exact congrArg MatchStack.size (MatchStack.start_of_consecutive mode)
  case rises =>
    rintro n ⟨o, present, role⟩
    obtain ⟨d, pair, -⟩ := known o (List.mem_of_getElem? present)
    obtain ⟨es, before⟩ := exists_shared_stackAt mode known n
    rw [stackAt_succ present pair, before]
    simp [matchNext, matchShared, role, MatchStack.size]
  case stays =>
    intro n notOpening alone
    cases present : os[n]? with
    | none => rw [stackAt_succ_of_none present]
    | some c =>
      obtain ⟨d, pair, numbered⟩ := known c (List.mem_of_getElem? present)
      have role : c.role = .closing := by
        cases role : c.role with
        | opening => exact absurd ⟨c, present, role⟩ notOpening
        | closing => rfl
      obtain ⟨es, before⟩ := exists_shared_stackAt mode known n
      -- A closing that is joined with no opening is left alone, so the top is of another pair.
      have orphan := (orphan_iff_not_joined mode known present role).mpr alone
      rw [statusAt_closing known present role before] at orphan
      rw [stackAt_succ present pair, before]
      cases es with
      | nil => simp [matchNext, matchShared, role]
      | cons e rest =>
        by_cases same : e.pair = c.pair
        · simp [closingStatus, same] at orphan
        · simp [matchNext, matchShared, role, numbered, same]
  case opens =>
    rintro i j ⟨o, c, first, -, opening, -, inside, -, -⟩
    exact ⟨⟨o, first, opening⟩, inside⟩
  case falls =>
    intro i j joined
    obtain ⟨after, atClosing⟩ := stackAt_succ_of_joined mode known joined
    exact ⟨atClosing, after⟩
  case above =>
    intro i j joined n above below
    obtain ⟨o, c, first, -⟩ := id joined
    obtain ⟨d, pair, -⟩ := known o (List.mem_of_getElem? first)
    obtain ⟨es, before⟩ := exists_shared_stackAt mode known i
    obtain ⟨waiting, opened, stack⟩ := stackAt_between known first pair joined before above below
    rw [before, stack]
    simp only [MatchStack.size, List.length_append, List.length_cons]
    omega

end Settings

end BracketColoring

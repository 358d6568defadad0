import BracketColoring.Proofs.LineCache.ByLine

/-!
# Which brackets match on one stack

In consecutive mode an opening is matched with the closing behind it of the same pair when what lies
between them is `Settled`: a sequence that, met with an opening of that pair on top of the stack,
ends with the same opening on top. The sequences are given by a grammar, without a stack. One
direction is an induction over the grammar (`Settled.matchAll`), the other over runs: at every
moment each waiting opening has a settled sequence behind it, up to the next waiting one
(`Waiting`).
-/

namespace BracketColoring

/-- What can lie behind a waiting opening of a pair: closings of other pairs, and openings with
their closings around sequences that are settled for their own pair. -/
inductive Settled : PairId → List Occurrence → Prop
  | nil (pair : PairId) : Settled pair []
  | stray {pair : PairId} {c : Occurrence} {rest : List Occurrence} :
      c.role = .closing → c.pair ≠ pair → Settled pair rest → Settled pair (c :: rest)
  | nested {pair : PairId} {o c : Occurrence} {inner rest : List Occurrence} :
      o.role = .opening → c.role = .closing → c.pair = o.pair →
      Settled o.pair inner → Settled pair rest → Settled pair (o :: inner ++ c :: rest)

/-- The opening and the closing at two indices are of one pair, with a settled sequence between. -/
def Joined (os : List Occurrence) (i j : Nat) : Prop :=
  ∃ o c, os[i]? = some o ∧ os[j]? = some c ∧ o.role = .opening ∧ c.role = .closing ∧
    i < j ∧ o.pair = c.pair ∧ Settled o.pair ((os.take j).drop (i + 1))

theorem Settled.append {pair : PairId} {a b : List Occurrence} (first : Settled pair a)
    (second : Settled pair b) : Settled pair (a ++ b) := by
  induction first with
  | nil => exact second
  | stray role other _ ih => exact .stray role other (ih second)
  | @nested _ o c inner rest opening closing same settled _ _ ih =>
    simpa using Settled.nested opening closing same settled (ih second)

/-- The waiting openings, innermost first, each with a settled sequence behind it; what lies before
the outermost of them does not matter. -/
inductive Waiting : List Occurrence → List StackEntry → Prop
  | nothing (os : List Occurrence) : Waiting os []
  | opening {os : List Occurrence} {es : List StackEntry} {o : Occurrence} {e : StackEntry}
      {after : List Occurrence} : Waiting os es → o.role = .opening → e.pair = o.pair →
      e.opening = o.range → Settled o.pair after → Waiting (os ++ o :: after) (e :: es)

namespace Waiting

variable {os : List Occurrence} {es : List StackEntry} {e : StackEntry}

theorem settle (waiting : Waiting os (e :: es)) {more : List Occurrence}
    (settled : Settled e.pair more) : Waiting (os ++ more) (e :: es) := by
  cases waiting with
  | @opening os _ o _ after outer role pair place behind =>
    rw [List.append_assoc, List.cons_append]
    exact .opening outer role pair place (behind.append (pair ▸ settled))

theorem close (waiting : Waiting os (e :: es)) {c : Occurrence} (role : c.role = .closing)
    (same : c.pair = e.pair) : Waiting (os ++ [c]) es := by
  cases waiting with
  | @opening os _ o _ after outer opens pair place behind =>
    cases es with
    | nil => exact .nothing _
    | cons e' es =>
      have closed : Settled e'.pair (o :: after ++ c :: []) :=
        .nested opens role (same.trans pair) behind (.nil _)
      simpa using outer.settle closed

end Waiting

namespace Settings

variable {s : Settings} {d : PairDefinition} {o : Occurrence}

/-- One occurrence more leaves every waiting opening with a settled sequence behind it. -/
theorem waiting_matchShared {os : List Occurrence} {es : List StackEntry} (waiting : Waiting os es)
    (numbered : d.id = o.pair) (opened : Nat) :
    ∃ es' opened', (s.matchShared d o es opened).2.2 = .shared es' opened' ∧
      Waiting (os ++ [o]) es' := by
  unfold matchShared
  cases role : o.role with
  | opening => exact ⟨_, _, rfl, .opening waiting role numbered rfl (.nil _)⟩
  | closing =>
    cases es with
    | nil => exact ⟨[], opened, rfl, .nothing _⟩
    | cons e rest =>
      by_cases same : e.pair = d.id
      · simp only [if_pos same]
        exact ⟨rest, opened, rfl, waiting.close role (numbered.symm.trans same.symm)⟩
      · simp only [if_neg same]
        have other : o.pair ≠ e.pair := numbered ▸ Ne.symm same
        exact ⟨e :: rest, opened, rfl, waiting.settle (.stray role other (.nil _))⟩

theorem waiting_matchAll (mode : s.mode = .consecutive) {os : List Occurrence}
    (known : ∀ o ∈ os, s.Knows o.pair) :
    ∃ es opened, (s.matchAll (.start s) os).2 = .shared es opened ∧ Waiting os es := by
  induction os using List.reverseRecOn with
  | nil => exact ⟨[], 0, MatchStack.start_of_consecutive mode, .nothing _⟩
  | append_singleton os o ih =>
    obtain ⟨es, opened, stack, waiting⟩ := ih fun o' membership => known o' (by simp [membership])
    obtain ⟨d, present, numbered⟩ := known o (by simp)
    rw [matchAll_append, matchAll_singleton present, stack]
    exact waiting_matchShared waiting numbered opened

end Settings

/-- A settled sequence leaves the waiting openings as they are. -/
theorem Settled.matchAll {s : Settings} {pair : PairId} {os : List Occurrence}
    (settled : Settled pair os) (known : ∀ o ∈ os, s.Knows o.pair) {e : StackEntry}
    (top : e.pair = pair) (below : List StackEntry) (opened : Nat) :
    ∃ opened', (s.matchAll (.shared (e :: below) opened) os).2 = .shared (e :: below) opened' := by
  induction settled generalizing e below opened with
  | nil => exact ⟨opened, rfl⟩
  | @stray pair c rest role other _ ih =>
    obtain ⟨d, present, numbered⟩ := known c List.mem_cons_self
    have apart : ¬ e.pair = d.id := by
      rw [top, numbered]
      exact Ne.symm other
    have knownRest : ∀ o ∈ rest, s.Knows o.pair := fun o membership =>
      known o (List.mem_cons_of_mem c membership)
    have left := ih knownRest top below opened
    simpa [Settings.matchAll, present, Settings.matchNext, Settings.matchShared, role, apart]
      using left
  | @nested pair o c inner rest opening closing same _ _ ihInner ihRest =>
    obtain ⟨d, present, numbered⟩ := known o (by simp)
    have knownInner : ∀ o' ∈ inner, s.Knows o'.pair := fun o' membership =>
      known o' (by simp [membership])
    have knownRest : ∀ o' ∈ rest, s.Knows o'.pair := fun o' membership =>
      known o' (by simp [membership])
    let pushed : StackEntry := ⟨d.id, s.sharedColor d (below.length + 1) opened, o.range⟩
    obtain ⟨opened', inside⟩ :=
      ihInner knownInner (e := pushed) numbered (e :: below) (opened + 1)
    obtain ⟨opened'', after⟩ := ihRest knownRest top below opened'
    refine ⟨opened'', ?_⟩
    have closes : s.pair? c.pair = some d := same ▸ present
    rw [List.cons_append, Settings.matchAll]
    simp only [present, Settings.matchNext, Settings.matchShared, opening, Settings.matchAll_append]
    rw [List.length_cons, inside]
    simpa [Settings.matchAll, closes, Settings.matchNext, Settings.matchShared, closing, pushed]
      using after

/-! ## The stack before an occurrence -/

namespace Settings

variable {s : Settings} {os : List Occurrence} {i j n : Nat} {o : Occurrence} {d : PairDefinition}

/-- The stack that the occurrence at an index meets. -/
def stackAt (s : Settings) (os : List Occurrence) (n : Nat) : MatchStack :=
  (s.matchAll (.start s) (os.take n)).2

theorem stackAt_succ (present : os[n]? = some o) (pair : s.pair? o.pair = some d) :
    s.stackAt os (n + 1) = (s.matchNext d o (s.stackAt os n)).2.2 := by
  rw [stackAt, List.take_add_one, present, Option.toList_some, matchAll_append,
    matchAll_singleton pair]
  rfl

theorem stackAt_succ_of_none (absent : os[n]? = none) : s.stackAt os (n + 1) = s.stackAt os n := by
  rw [stackAt, List.take_add_one, absent, Option.toList_none, List.append_nil]
  rfl

theorem stackAt_of_le (before : i ≤ n) :
    s.stackAt os n = (s.matchAll (s.stackAt os i) ((os.take n).drop i)).2 := by
  have parts : os.take n = os.take i ++ (os.take n).drop i := by
    have cut := List.take_append_drop i (os.take n)
    rw [List.take_take, Nat.min_eq_left before] at cut
    exact cut.symm
  rw [stackAt, parts, matchAll_append, ← parts]
  rfl

theorem knows_take (known : ∀ o ∈ os, s.Knows o.pair) (n : Nat) :
    ∀ o ∈ os.take n, s.Knows o.pair :=
  fun o membership => known o (List.mem_of_mem_take membership)

theorem stackAt_opening (present : os[i]? = some o) (pair : s.pair? o.pair = some d)
    (role : o.role = .opening) {es : List StackEntry} {opened : Nat}
    (before : s.stackAt os i = .shared es opened) :
    s.stackAt os (i + 1) =
      .shared (⟨d.id, s.sharedColor d es.length opened, o.range⟩ :: es) (opened + 1) := by
  rw [stackAt_succ present pair, before]
  simp [matchNext, matchShared, role]

/-- A closing finds the opening that it is joined with on top of the stack. -/
theorem stackAt_of_joined (known : ∀ o ∈ os, s.Knows o.pair) (first : os[i]? = some o)
    (pair : s.pair? o.pair = some d) (joined : Joined os i j) {es : List StackEntry} {opened : Nat}
    (before : s.stackAt os i = .shared es opened) :
    ∃ opened', s.stackAt os j =
      .shared (⟨d.id, s.sharedColor d es.length opened, o.range⟩ :: es) opened' := by
  obtain ⟨o', c, first', second, opening, closing, inside, same, settled⟩ := joined
  obtain rfl : o = o' := Option.some.inj (first.symm.trans first')
  have numbered : d.id = o.pair := (known o (List.mem_of_getElem? first)).id_eq pair
  let e : StackEntry := ⟨d.id, s.sharedColor d es.length opened, o.range⟩
  have knownBetween : ∀ o ∈ (os.take j).drop (i + 1), s.Knows o.pair := fun o membership =>
    knows_take known j o (List.mem_of_mem_drop membership)
  obtain ⟨opened', after⟩ := settled.matchAll knownBetween (e := e) numbered es (opened + 1)
  exact ⟨opened', by rw [stackAt_of_le inside, stackAt_opening first pair opening before, after]⟩

end Settings

/-! ## Matched closings -/

def statusAt (recorded : List ColoredOccurrence) (i : Nat) : Option Status :=
  (recorded[i]?).map (·.status)

/-- What becomes of a closing of a pair, by the innermost waiting opening. -/
def closingStatus (pair : PairId) : List StackEntry → Status
  | [] => .orphan
  | e :: _ => if e.pair = pair then .matched e.opening else .orphan

namespace Settings

variable {s : Settings} {os : List Occurrence} {i j : Nat} {o c : Occurrence} {d : PairDefinition}

/-- What is recorded of an occurrence comes from the stack that it meets. -/
theorem getElem?_recorded (known : ∀ o ∈ os, s.Knows o.pair) (present : os[i]? = some o)
    (pair : s.pair? o.pair = some d) :
    (s.matchAll (.start s) os).1[i]? =
      some ⟨o, (s.matchNext d o (s.stackAt os i)).1, (s.matchNext d o (s.stackAt os i)).2.1⟩ :=
  getElem?_matchAll known present pair

theorem statusAt_closing (known : ∀ o ∈ os, s.Knows o.pair) (present : os[j]? = some c)
    (role : c.role = .closing) {es : List StackEntry} {opened : Nat}
    (before : s.stackAt os j = .shared es opened) :
    statusAt (s.matchAll (.start s) os).1 j = some (closingStatus c.pair es) := by
  obtain ⟨d, pair, numbered⟩ := known c (List.mem_of_getElem? present)
  rw [statusAt, getElem?_recorded known present pair, before]
  simp only [matchNext, matchShared, role, numbered]
  cases es with
  | nil => rfl
  | cons e rest =>
    by_cases same : e.pair = c.pair
    · simp [closingStatus, same]
    · simp [closingStatus, same]

theorem statusAt_of_joined (mode : s.mode = .consecutive) (known : ∀ o ∈ os, s.Knows o.pair)
    (first : os[i]? = some o) (joined : Joined os i j) :
    statusAt (s.matchAll (.start s) os).1 j = some (.matched o.range) := by
  obtain ⟨d, pair, numbered⟩ := known o (List.mem_of_getElem? first)
  obtain ⟨es, opened, before, -⟩ := waiting_matchAll mode (knows_take known i)
  obtain ⟨opened', reached⟩ := stackAt_of_joined known first pair joined before
  obtain ⟨o', c, first', second, -, closing, -, same, -⟩ := joined
  cases first.symm.trans first'
  rw [statusAt_closing known second closing reached]
  simp [closingStatus, numbered, same]

theorem exists_joined_of_statusAt (mode : s.mode = .consecutive)
    (known : ∀ o ∈ os, s.Knows o.pair) (present : os[j]? = some c) (role : c.role = .closing)
    {r : Range} (matched : statusAt (s.matchAll (.start s) os).1 j = some (.matched r)) :
    ∃ i o, os[i]? = some o ∧ o.range = r ∧ Joined os i j := by
  obtain ⟨es, opened, stack, waiting⟩ := waiting_matchAll mode (knows_take known j)
  rw [statusAt_closing known present role stack] at matched
  generalize prior : os.take j = sequence at waiting
  cases waiting with
  | nothing => simp [closingStatus] at matched
  | @opening earlier _ o e after _ opening pair place settled =>
    by_cases same : e.pair = c.pair
    · simp only [closingStatus, if_pos same, Option.some.injEq, Status.matched.injEq] at matched
      have here : (os.take j)[earlier.length]? = some o := by simp [prior]
      rw [List.getElem?_take] at here
      have inside : earlier.length < j := by
        by_contra outside
        rw [if_neg outside] at here
        cases here
      rw [if_pos inside] at here
      have between : (os.take j).drop (earlier.length + 1) = after := by
        rw [prior, ← List.drop_drop, List.drop_left]
        rfl
      refine ⟨earlier.length, o, here, place.symm.trans matched, o, c, here, present, opening, role,
        inside, pair.symm.trans same, ?_⟩
      rw [between]
      exact settled
    · simp [closingStatus, if_neg same] at matched

theorem statusAt_closing_cases (mode : s.mode = .consecutive) (known : ∀ o ∈ os, s.Knows o.pair)
    (present : os[j]? = some c) (role : c.role = .closing) :
    statusAt (s.matchAll (.start s) os).1 j = some .orphan ∨
      ∃ r, statusAt (s.matchAll (.start s) os).1 j = some (.matched r) := by
  obtain ⟨es, opened, stack, -⟩ := waiting_matchAll mode (knows_take known j)
  rw [statusAt_closing known present role stack]
  cases es with
  | nil => exact .inl rfl
  | cons e rest =>
    by_cases same : e.pair = c.pair
    · exact .inr ⟨e.opening, by simp [closingStatus, same]⟩
    · exact .inl (by simp [closingStatus, same])

theorem index_eq_of_range (distinct : (os.map (·.range)).Nodup) {o' : Occurrence}
    (first : os[i]? = some o) (second : os[j]? = some o') (same : o.range = o'.range) : i = j := by
  obtain ⟨inside, -⟩ := List.getElem?_eq_some_iff.mp first
  apply (List.getElem?_inj (by simpa using inside) distinct).mp
  rw [List.getElem?_map, List.getElem?_map, first, second, Option.map_some, Option.map_some, same]

theorem joined_iff (first : os[i]? = some o) (second : os[j]? = some c)
    (opening : o.role = .opening) (closing : c.role = .closing) :
    Joined os i j ↔ i < j ∧ o.pair = c.pair ∧ Settled o.pair ((os.take j).drop (i + 1)) := by
  constructor
  · rintro ⟨o', c', first', second', -, -, joined⟩
    cases first.symm.trans first'
    cases second.symm.trans second'
    exact joined
  · intro joined
    exact ⟨o, c, first, second, opening, closing, joined⟩

/-- Since ranges are distinct, a matched closing names its opening. -/
theorem matched_iff_joined (mode : s.mode = .consecutive) (known : ∀ o ∈ os, s.Knows o.pair)
    (distinct : (os.map (·.range)).Nodup) (first : os[i]? = some o) (second : os[j]? = some c)
    (closing : c.role = .closing) :
    statusAt (s.matchAll (.start s) os).1 j = some (.matched o.range) ↔ Joined os i j := by
  constructor
  · intro matched
    obtain ⟨i', o', first', place, joined⟩ :=
      exists_joined_of_statusAt mode known second closing matched
    exact index_eq_of_range distinct first' first place ▸ joined
  · exact statusAt_of_joined mode known first

theorem orphan_iff_not_joined (mode : s.mode = .consecutive) (known : ∀ o ∈ os, s.Knows o.pair)
    (present : os[j]? = some c) (closing : c.role = .closing) :
    statusAt (s.matchAll (.start s) os).1 j = some .orphan ↔ ∀ i, ¬ Joined os i j := by
  constructor
  · intro orphan i joined
    obtain ⟨o, -, first, -⟩ := id joined
    rw [statusAt_of_joined mode known first joined] at orphan
    cases orphan
  · intro alone
    rcases statusAt_closing_cases mode known present closing with orphan | ⟨r, matched⟩
    · exact orphan
    · obtain ⟨i, -, -, -, joined⟩ := exists_joined_of_statusAt mode known present closing matched
      exact absurd joined (alone i)

/-- In consecutive mode an opening is matched with a closing exactly when they are of one pair and
what lies between is settled, and a closing that is matched with no opening stays alone. -/
theorem matched_iff_settled (mode : s.mode = .consecutive) (known : ∀ o ∈ os, s.Knows o.pair)
    (ordered : os.Pairwise fun a b => a.line ≤ b.line) (distinct : (os.map (·.range)).Nodup) :
    let recorded := ((LineCache.forSettings s).processAll s os).occurrences
    recorded.map (·.occurrence) = os ∧
      (∀ i j o c, os[i]? = some o → os[j]? = some c → o.role = .opening → c.role = .closing →
        (statusAt recorded j = some (.matched o.range) ↔
          i < j ∧ o.pair = c.pair ∧ Settled o.pair ((os.take j).drop (i + 1)))) ∧
      ∀ j c, os[j]? = some c → c.role = .closing →
        (statusAt recorded j = some .orphan ↔ ∀ i, ¬ Joined os i j) := by
  intro recorded
  have run : recorded = (s.matchAll (.start s) os).1 := LineCache.occurrences_processAll ordered
  rw [run]
  refine ⟨occurrences_matchAll known, ?_, ?_⟩
  · intro i j o c first second opening closing
    rw [← joined_iff first second opening closing]
    exact matched_iff_joined mode known distinct first second closing
  · intro j c present closing
    exact orphan_iff_not_joined mode known present closing

theorem matched_iff_settled_crossed :
    let mark (line column : Nat) (literal : String) (pair : PairId) (role : Role) : Occurrence :=
      ⟨⟨⟨line, column⟩, ⟨line, column + 1⟩⟩, literal, pair, role⟩
    let os := [mark 0 0 "(" 0 .opening, mark 0 1 "]" 1 .closing, mark 1 0 "[" 1 .opening,
      mark 1 1 ")" 0 .closing, mark 1 2 "]" 1 .closing, mark 1 3 ")" 0 .closing]
    let recorded := ((LineCache.forSettings classic).processAll classic os).occurrences
    (∀ o ∈ os, classic.Knows o.pair) ∧ (os.Pairwise fun a b => a.line ≤ b.line) ∧
      (os.map (·.range)).Nodup ∧ recorded.map (·.occurrence) = os ∧
      statusAt recorded 5 = some (.matched ⟨⟨0, 0⟩, ⟨0, 1⟩⟩) := by
  intro mark os recorded
  have known : ∀ o ∈ os, classic.Knows o.pair := by
    intro o membership
    simp only [os, List.mem_cons, List.not_mem_nil, or_false] at membership
    rcases membership with rfl | rfl | rfl | rfl | rfl | rfl <;> exact ⟨_, rfl, rfl⟩
  have ordered : os.Pairwise fun a b => a.line ≤ b.line := by decide
  have distinct : (os.map (·.range)).Nodup := by decide
  obtain ⟨all, matched, -⟩ := matched_iff_settled (s := classic) rfl known ordered distinct
  have inner : Settled 1 [mark 1 1 ")" 0 .closing] := .stray rfl (by decide) (.nil 1)
  have outer : Settled 0 [mark 1 0 "[" 1 .opening, mark 1 1 ")" 0 .closing,
      mark 1 2 "]" 1 .closing] :=
    .nested (o := mark 1 0 "[" 1 .opening) (c := mark 1 2 "]" 1 .closing) rfl rfl rfl inner (.nil 0)
  have between : Settled 0 ((os.take 5).drop 1) := .stray rfl (by decide) outer
  refine ⟨known, ordered, distinct, all, ?_⟩
  exact (matched 0 5 _ _ rfl rfl rfl rfl).mpr ⟨by decide, rfl, between⟩

end Settings

end BracketColoring

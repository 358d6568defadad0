import BracketColoring.Pattern.Search

/-!
# Searches go on to the end

A search goes on until nothing more is found (`Finder.Finds`); its budget never stops it. After the
first match, each one leaves a shorter text, since at the end of the text there is only the empty
match, and that does not count behind another.
-/

namespace BracketColoring

namespace Finder

variable {find : Finder} {touching : Bool} {before : Option Char} {text : List Char} {h : Hit}

/-- The matches that are found one after the other until there are no more, and the text after the
last one. -/
inductive Finds (find : Finder) :
    Bool → Option Char → List Char → List Match → List Char → Prop
  | nothing {touching : Bool} {before : Option Char} {text : List Char}
      (next : find.next? touching before text = none) : Finds find touching before text [] text
  | found {touching : Bool} {before : Option Char} {text tail : List Char} {h : Hit}
      {later : List Match} (next : find.next? touching before text = some h)
      (goesOn : Finds find true
        (lastOr (lastOr before (text.take h.start)) ((text.drop h.start).take h.length))
        ((text.drop h.start).drop h.length) later tail) :
      Finds find touching before text
        (⟨text.take h.start, (text.drop h.start).take h.length, h.names⟩ :: later) tail

theorem Finds.unique {ms ms' : List Match} {tail tail' : List Char}
    (finds : find.Finds touching before text ms tail)
    (finds' : find.Finds touching before text ms' tail') : ms = ms' ∧ tail = tail' := by
  induction finds generalizing ms' with
  | nothing next =>
    cases finds' with
    | nothing _ => exact ⟨rfl, rfl⟩
    | found next' _ => cases next.symm.trans next'
  | found next _ ih =>
    cases finds' with
    | nothing next' => cases next.symm.trans next'
    | found next' goesOn' =>
      cases next.symm.trans next'
      obtain ⟨rfl, rfl⟩ := ih goesOn'
      exact ⟨rfl, rfl⟩

/-- At the end of a text there is no match but the empty one. -/
def EmptyAtEnd (find : Finder) : Prop :=
  ∀ before h, find before [] = some h → h.start = 0 ∧ h.length = 0

/-- A match behind another one ends further on. -/
theorem advances_of_next? (atEnd : find.EmptyAtEnd) (next : find.next? true before text = some h) :
    text ≠ [] ∧ 0 < h.start + h.length := by
  unfold next? at next
  cases first : find before text with
  | none => simp [first] at next
  | some h' =>
    by_cases empty : h'.start = 0 ∧ h'.length = 0
    · cases text with
      | nil => simp [first, empty] at next
      | cons c rest =>
        simp only [first, empty, beq_self_eq_true, Bool.and_self, ↓reduceIte,
          Option.map_eq_some_iff] at next
        obtain ⟨h'', -, rfl⟩ := next
        exact ⟨List.cons_ne_nil c rest, Nat.add_pos_left (Nat.succ_pos _) _⟩
    · obtain rfl : h' = h := by simpa [first, empty] using next
      refine ⟨?_, by omega⟩
      rintro rfl
      exact empty (atEnd before h' first)

theorem length_rest_lt (atEnd : find.EmptyAtEnd) (next : find.next? true before text = some h) :
    ((text.drop h.start).drop h.length).length < text.length := by
  obtain ⟨nonempty, advances⟩ := advances_of_next? atEnd next
  have positive := List.length_pos_iff.mpr nonempty
  simp only [List.length_drop]
  omega

theorem finds_matchesFrom (atEnd : find.EmptyAtEnd) {budget : Nat}
    (enough : text.length + (if touching then 1 else 2) ≤ budget) :
    find.Finds touching before text (find.matchesFrom budget touching before text).1
      (find.matchesFrom budget touching before text).2 := by
  induction budget generalizing touching before text with
  | zero => split at enough <;> omega
  | succ budget ih =>
    rw [matchesFrom]
    cases next : find.next? touching before text with
    | none => exact .nothing next
    | some h =>
      refine .found next (ih ?_)
      cases touching with
      | false =>
        simp only [List.length_drop, Bool.false_eq_true, ↓reduceIte] at enough ⊢
        omega
      | true =>
        have shorter := length_rest_lt atEnd next
        simp only [↓reduceIte] at enough ⊢
        omega

end Finder

theorem Thread.start_mark (t : Thread) (name : String) : (t.mark name).start = t.start := by
  unfold mark
  split <;> rfl

namespace Program

variable {p : Program} {pos : Nat}

/-! ## Threads that are followed -/

/-- What holds of a thread holds of the threads that it goes on to without reading. -/
structure Follows (p : Program) (good : Thread → Prop) : Prop where
  branch : ∀ t first second, good t → p.steps[t.step]? = some (.branch first second) →
    good (t.goto first) ∧ good (t.goto second)
  mark : ∀ t name next, good t → p.steps[t.step]? = some (.mark name next) →
    good ((t.mark name).goto next)
  check : ∀ t a next, good t → p.steps[t.step]? = some (.check a next) → good (t.goto next)

namespace Follows

variable {good : Thread → Prop}

theorem of_mem_follow (follows : p.Follows good) {holds : Assertion → Bool} {budget : Nat}
    {t : Thread} {f : Front} (here : good t) (others : ∀ u ∈ f.threads, good u) :
    ∀ u ∈ (p.follow holds budget t f).threads, good u := by
  induction budget generalizing t f with
  | zero => exact others
  | succ budget ih =>
    rw [follow]
    by_cases known : f.isVisited t.step
    · rw [if_pos known]
      exact others
    · rw [if_neg known]
      have pushed : ∀ u ∈ ((f.visit t.step).push t).threads, good u :=
        List.forall_mem_cons.mpr ⟨here, others⟩
      dsimp only
      -- A case for each kind of step, in the order of the definition.
      split
      · next step =>
        have next := follows.branch t _ _ here step
        exact ih next.2 (ih next.1 others)
      · next step => exact ih (follows.mark t _ _ here step) others
      · next step =>
        split
        · exact ih (follows.check t _ _ here step) pushed
        · exact pushed
      · exact pushed
      · exact pushed
      · exact others

theorem of_mem_followAll (follows : p.Follows good) {holds : Assertion → Bool} {ts : List Thread}
    (each : ∀ t ∈ ts, good t) : ∀ u ∈ p.followAll holds ts, good u := by
  suffices kept : ∀ f : Front, (∀ u ∈ f.threads, good u) →
      ∀ u ∈ (ts.foldl (fun f t => p.follow holds (p.steps.size + 1) t f) f).threads, good u by
    simpa [followAll] using kept ⟨.replicate p.steps.size false, []⟩ (by simp)
  induction ts with
  | nil => exact fun f others => others
  | cons t rest ih =>
    obtain ⟨first, later⟩ := List.forall_mem_cons.mp each
    exact fun f others => ih later _ (follows.of_mem_follow first others)

theorem of_mem_threadsAt (follows : p.Follows good) {waits : Bool} {before after : Option Char}
    {ts : List Thread} (each : ∀ t ∈ ts, good t) :
    ∀ u ∈ p.threadsAt waits before after ts, good u := by
  unfold threadsAt
  dsimp only
  split
  · split
    · exact follows.of_mem_followAll (follows.of_mem_followAll each)
    · exact follows.of_mem_followAll each
  · exact follows.of_mem_followAll each

end Follows

/-- Threads keep the place where they began. -/
theorem follows_start (p : Program) (pos : Nat) : p.Follows fun t => t.start = pos where
  branch _ _ _ begun _ := ⟨begun, begun⟩
  mark t name _ begun _ := (t.start_mark name).trans begun
  check _ _ _ begun _ := begun

/-! ## Searches -/

/-- A match that is found where the search begins is empty. -/
theorem empty_of_place {m : SearchMode} {before after : Option Char} {h : Hit}
    (found : (p.place m none [] before after pos).1 = some h) : h.start = pos ∧ h.length = 0 := by
  unfold place at found
  dsimp only at found
  split at found
  case h_1 t done =>
    cases found
    have begun : t.start = pos := by
      refine (p.follows_start pos).of_mem_threadsAt ?_ t (List.mem_of_find?_eq_some done)
      intro u fresh
      rw [List.nil_append] at fresh
      split at fresh
      · rw [List.mem_singleton.mp fresh]
      · cases fresh
    exact ⟨begun, by rw [begun, Nat.sub_self]⟩
  case h_2 => cases found

theorem emptyAtEnd_leftmost? (p : Program) (m : SearchMode) :
    Finder.EmptyAtEnd fun before text => (p.leftmost? m before text).1 :=
  fun _ _ found => empty_of_place found

theorem emptyAtEnd_find? (p : Program) (ahead words groups : Bool) :
    (p.find? ahead words groups).EmptyAtEnd := by
  intro before h found
  unfold find? at found
  dsimp only at found
  split at found
  · split at found
    · exact p.emptyAtEnd_leftmost? _ before h found
    · split at found
      · obtain ⟨first, there, again⟩ := Option.bind_eq_some_iff.mp found
        obtain ⟨start, -⟩ := p.emptyAtEnd_leftmost? _ before first there
        simp only [retrace?, List.drop_nil, List.take_nil, Option.map_eq_some_iff] at again
        obtain ⟨inside, ran, rfl⟩ := again
        exact ⟨start, (p.emptyAtEnd_leftmost? _ _ inside ran).2⟩
      · exact p.emptyAtEnd_leftmost? _ before h found
  · exact p.emptyAtEnd_leftmost? _ before h found

/-- How a program looks for a match. -/
def finder (p : Program) (groups : Bool) : Finder :=
  p.find? (p.checks (·.looksAhead)) (p.checks (·.aboutWords)) groups

theorem finds_search (p : Program) (groups : Bool) (text : List Char) :
    (p.finder groups).Finds false none text (p.search groups text).1 (p.search groups text).2 :=
  Finder.finds_matchesFrom (p.emptyAtEnd_find? _ _ _) (Nat.le_refl _)

/-- The gaps and the matches of a search, and the text after them, are the text. -/
theorem whole_search (p : Program) (groups : Bool) (text : List Char) :
    Match.whole (p.search groups text).1 ++ (p.search groups text).2 = text :=
  Finder.whole_matchesFrom _ _ _ _ _

end Program

end BracketColoring

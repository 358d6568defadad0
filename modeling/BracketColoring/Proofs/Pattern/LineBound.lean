import BracketColoring.Proofs.Pattern.Unconditional

/-!
# Searches that stay on a line

A program without conditions that reads no line feed and has no empty match finds the same on a line
whatever stands on the lines below. No thread gets over the line feed at its end: a match that was
found before it stands, and otherwise the search begins anew behind it (`freeScan_feed`). So the
matches of a text with a line feed are those before it and those behind it (`search_feed`).
-/

namespace BracketColoring

/-- The step has no condition and does not read a line feed. -/
def Step.isLineBound : Step → Bool
  | .read s _ => !s.contains '\n'
  | .check _ _ => false
  | _ => true

/-- The match has a character, and it lies before a place. -/
def Hit.Inside (last : Nat) (h : Hit) : Prop := 0 < h.length ∧ h.start + h.length ≤ last

/-! Threads and matches in a text with `k` characters more before it. -/

def Thread.moved (k : Nat) (t : Thread) : Thread := { t with start := t.start + k }

def Hit.moved (k : Nat) (h : Hit) : Hit := { h with start := h.start + k }

def Front.moved (k : Nat) (f : Front) : Front := ⟨f.visited, f.threads.map (·.moved k)⟩

theorem Thread.mark_moved (k : Nat) (t : Thread) (name : String) :
    (t.moved k).mark name = (t.mark name).moved k := by
  unfold mark moved
  dsimp only
  split <;> rfl

namespace Program

variable {p : Program}

/-- Whether the end may be reached from a step without reading. When the budget is used up, it is
taken to be reached. -/
def mayEnd (p : Program) : Nat → Nat → Bool
  | 0, _ => true
  | budget + 1, step =>
    match p.steps[step]? with
    | some (.branch first second) => p.mayEnd budget first || p.mayEnd budget second
    | some (.mark _ next) => p.mayEnd budget next
    | some (.check _ next) => p.mayEnd budget next
    | some (.read _ _) => false
    | some .done => true
    | none => false

/-- The program has no conditions, reads no line feed, and has no empty match. -/
def LineBound (p : Program) : Prop :=
  p.steps.all Step.isLineBound = true ∧ p.mayEnd p.steps.size p.start = false

instance (p : Program) : Decidable p.LineBound := inferInstanceAs (Decidable (_ ∧ _))

namespace LineBound

theorem isLineBound (bound : p.LineBound) {i : Nat} {step : Step} (here : p.steps[i]? = some step) :
    step.isLineBound = true := by
  rcases Array.getElem?_eq_some_iff.mp here with ⟨inside, rfl⟩
  exact Array.all_eq_true.mp bound.1 i inside

theorem unconditional (bound : p.LineBound) : p.Unconditional := by
  intro i a next here
  cases bound.isLineBound here

end LineBound

/-! ## Matches have characters -/

/-- The threads that have read nothing since a place are not at the end. -/
theorem follows_mayEnd (p : Program) (pos : Nat) :
    p.Follows fun t => t.start < pos ∨ t.start = pos ∧ ∃ budget, p.mayEnd budget t.step = false where
  branch t first second good step := by
    rcases good with before | ⟨here, budget, reads⟩
    · exact ⟨.inl before, .inl before⟩
    · cases budget with
      | zero => cases reads
      | succ budget =>
        simp only [mayEnd, step, Bool.or_eq_false_iff] at reads
        exact ⟨.inr ⟨here, budget, reads.1⟩, .inr ⟨here, budget, reads.2⟩⟩
  mark t name next good step := by
    rcases good with before | ⟨here, budget, reads⟩
    · exact .inl ((t.start_mark name).symm ▸ before)
    · cases budget with
      | zero => cases reads
      | succ budget =>
        simp only [mayEnd, step] at reads
        exact .inr ⟨(t.start_mark name).trans here, budget, reads⟩
  check t a next good step := by
    rcases good with before | ⟨here, budget, reads⟩
    · exact .inl before
    · cases budget with
      | zero => cases reads
      | succ budget =>
        simp only [mayEnd, step] at reads
        exact .inr ⟨here, budget, reads⟩

theorem mayEnd_of_isDone {t : Thread} (done : p.isDone t = true) (budget : Nat) :
    p.mayEnd budget t.step = true := by
  have ended : p.steps[t.step]? = some .done := by simpa [isDone] using done
  cases budget with
  | zero => rfl
  | succ budget => rw [mayEnd, ended]

theorem start_of_advance? {c : Char} {t u : Thread} (advanced : p.advance? c t = some u) :
    u.start = t.start := by
  unfold advance? at advanced
  split at advanced
  · split at advanced
    · cases advanced
      rfl
    · cases advanced
  · cases advanced

namespace LineBound

/-- At a place there are only matches that have characters, and threads that began there or
before. -/
theorem inside_of_freePlace (bound : p.LineBound) {best : Option Hit} {arrived : List Thread}
    {pos : Nat} (earlier : ∀ t ∈ arrived, t.start < pos) (known : ∀ h ∈ best, h.Inside pos) :
    (∀ h ∈ (p.freePlace best arrived pos).1, h.Inside pos) ∧
      ∀ t ∈ (p.freePlace best arrived pos).2, t.start ≤ pos := by
  have good : ∀ t ∈ p.followAll (fun _ => false) (arrived ++ p.fresh best pos),
      t.start < pos ∨ t.start = pos ∧ ∃ budget, p.mayEnd budget t.step = false := by
    refine (p.follows_mayEnd pos).of_mem_followAll ?_
    intro t member
    rcases List.mem_append.mp member with old | new
    · exact .inl (earlier t old)
    · unfold fresh at new
      split at new
      · rw [List.mem_singleton.mp new]
        exact .inr ⟨rfl, _, bound.2⟩
      · cases new
  rw [freePlace]
  generalize p.followAll (fun _ => false) (arrived ++ p.fresh best pos) = ts at good ⊢
  have reached : ∀ t ∈ ts, t.start ≤ pos := by
    intro t member
    rcases good t member with before | ⟨here, _⟩
    · exact Nat.le_of_lt before
    · exact Nat.le_of_eq here
  unfold settle
  cases done : ts.find? p.isDone with
  | none => exact ⟨known, reached⟩
  | some t =>
    refine ⟨?_, fun u member => reached u ((List.takeWhile_sublist _).subset member)⟩
    intro h same
    cases same
    have began : t.start < pos := by
      rcases good t (List.mem_of_find?_eq_some done) with before | ⟨_, budget, reads⟩
      · exact before
      · rw [mayEnd_of_isDone (List.find?_some done)] at reads
        cases reads
    exact ⟨Nat.sub_pos_of_lt began, Nat.le_of_eq (Nat.add_sub_cancel' (Nat.le_of_lt began))⟩

theorem inside_of_freeScan (bound : p.LineBound) {best : Option Hit} {arrived : List Thread}
    {pos : Nat} {text : List Char} (earlier : ∀ t ∈ arrived, t.start < pos)
    (known : ∀ h ∈ best, h.Inside pos) :
    ∀ h ∈ p.freeScan best arrived pos text, h.Inside (pos + text.length) := by
  induction text generalizing best arrived pos with
  | nil => exact (bound.inside_of_freePlace earlier known).1
  | cons c rest ih =>
    rw [freeScan]
    rcases bound.inside_of_freePlace earlier known with ⟨found, reached⟩
    generalize p.freePlace best arrived pos = placed at found reached
    rcases placed with ⟨best', ts⟩
    dsimp only at found reached ⊢
    split
    · intro h same
      exact ⟨(found h same).1, Nat.le_trans (found h same).2 (Nat.le_add_right _ _)⟩
    · have went : ∀ t ∈ ts.filterMap (p.advance? c), t.start < pos + 1 := by
        intro u member
        rcases List.mem_filterMap.mp member with ⟨t, listed, advanced⟩
        rw [start_of_advance? advanced]
        exact Nat.lt_succ_of_le (reached t listed)
      have later : ∀ h ∈ best', h.Inside (pos + 1) := fun h same =>
        ⟨(found h same).1, Nat.le_succ_of_le (found h same).2⟩
      rw [List.length_cons, Nat.add_comm rest.length, ← Nat.add_assoc]
      exact ih went later

end LineBound

/-! ## Searches that begin later -/

section

variable {holds : Assertion → Bool} (p : Program) (k : Nat)

theorem follow_moved (budget : Nat) (t : Thread) (f : Front) :
    p.follow holds budget (t.moved k) (f.moved k) = (p.follow holds budget t f).moved k := by
  induction budget generalizing t f with
  | zero => rfl
  | succ budget ih =>
    rw [follow, follow]
    have visited : (f.moved k).isVisited (t.moved k).step = f.isVisited t.step := rfl
    rw [visited]
    split
    · rfl
    · have step : (t.moved k).step = t.step := rfl
      have visit : (f.moved k).visit t.step = (f.visit t.step).moved k := rfl
      have push : ((f.visit t.step).moved k).push (t.moved k) =
          ((f.visit t.step).push t).moved k := rfl
      have goto : ∀ (u : Thread) (next : Nat), (u.moved k).goto next = (u.goto next).moved k :=
        fun _ _ => rfl
      dsimp only
      rw [step, visit]
      cases p.steps[t.step]? with
      | none => rfl
      | some s =>
        cases s with
        | branch first second => simp only [goto, ih]
        | mark name next => simp only [Thread.mark_moved, goto, ih]
        | check a next =>
          simp only [goto, push, ih]
          split <;> rfl
        | read s next => rfl
        | done => rfl

theorem followAll_moved (ts : List Thread) :
    p.followAll holds (ts.map (·.moved k)) = (p.followAll holds ts).map (·.moved k) := by
  have folded : ∀ f : Front,
      (ts.map (·.moved k)).foldl (fun f t => p.follow holds (p.steps.size + 1) t f) (f.moved k) =
        (ts.foldl (fun f t => p.follow holds (p.steps.size + 1) t f) f).moved k := by
    induction ts with
    | nil => exact fun f => rfl
    | cons t rest ih =>
      intro f
      rw [List.map_cons, List.foldl_cons, List.foldl_cons, follow_moved, ih]
  have all := folded ⟨.replicate p.steps.size false, []⟩
  exact (congrArg (fun f => f.threads.reverse) all).trans List.map_reverse.symm

theorem settle_moved (best : Option Hit) (pos : Nat) (ts : List Thread) :
    p.settle (best.map (·.moved k)) (pos + k) (ts.map (·.moved k)) =
      ((p.settle best pos ts).1.map (·.moved k), (p.settle best pos ts).2.map (·.moved k)) := by
  have done : (p.isDone ∘ fun t => t.moved k) = p.isDone := rfl
  rw [settle, settle, List.find?_map, done]
  cases ts.find? p.isDone with
  | none => rfl
  | some t =>
    have length : pos + k - (t.start + k) = pos - t.start := Nat.add_sub_add_right pos k t.start
    simp only [Option.map_some, Thread.moved, Hit.moved, length, List.takeWhile_map]
    rfl

theorem freePlace_moved (best : Option Hit) (arrived : List Thread) (pos : Nat) :
    p.freePlace (best.map (·.moved k)) (arrived.map (·.moved k)) (pos + k) =
      ((p.freePlace best arrived pos).1.map (·.moved k),
        (p.freePlace best arrived pos).2.map (·.moved k)) := by
  have begun : p.fresh (best.map (·.moved k)) (pos + k) = (p.fresh best pos).map (·.moved k) := by
    cases best <;> rfl
  rw [freePlace, freePlace, begun, ← List.map_append, followAll_moved, settle_moved]

/-- A search that begins later finds the same matches later. -/
theorem freeScan_moved (best : Option Hit) (arrived : List Thread) (pos : Nat)
    (text : List Char) :
    p.freeScan (best.map (·.moved k)) (arrived.map (·.moved k)) (pos + k) text =
      (p.freeScan best arrived pos text).map (·.moved k) := by
  induction text generalizing best arrived pos with
  | nil => rw [freeScan, freeScan, freePlace_moved]
  | cons c rest ih =>
    rw [freeScan, freeScan, freePlace_moved]
    generalize p.freePlace best arrived pos = placed
    rcases placed with ⟨best', ts⟩
    have advance : (ts.map (·.moved k)).filterMap (p.advance? c) =
        (ts.filterMap (p.advance? c)).map (·.moved k) := by
      rw [List.filterMap_map, List.map_filterMap]
      refine congrArg (ts.filterMap ·) (funext fun t => ?_)
      simp only [Function.comp_apply, advance?, Thread.moved]
      split
      · split <;> rfl
      · rfl
    have next := ih best' (ts.filterMap (p.advance? c)) (pos + 1)
    rw [Nat.add_right_comm] at next
    dsimp only
    rw [List.isEmpty_map, Option.isSome_map, advance, next]
    split <;> rfl

end

/-! ## Line feeds -/

/-- A match stands when no threads are left. -/
theorem freeScan_some (p : Program) (h : Hit) (pos : Nat) (text : List Char) :
    p.freeScan (some h) [] pos text = some h := by
  have place : p.freePlace (some h) [] pos = (some h, []) := rfl
  cases text with
  | nil => rw [freeScan, place]
  | cons c rest =>
    rw [freeScan, place]
    rfl

namespace LineBound

theorem advance?_feed (bound : p.LineBound) (t : Thread) : p.advance? '\n' t = none := by
  unfold advance?
  split
  · next here =>
    have line := bound.isLineBound here
    rw [Step.isLineBound, Bool.not_eq_true'] at line
    rw [line]
    rfl
  · rfl

/-- No thread gets over a line feed. -/
theorem freeScan_feed (bound : p.LineBound) (best : Option Hit) (arrived : List Thread)
    (pos : Nat) (a rest : List Char) :
    p.freeScan best arrived pos (a ++ '\n' :: rest) =
      (p.freeScan best arrived pos a).or (p.freeScan none [] (pos + a.length + 1) rest) := by
  induction a generalizing best arrived pos with
  | nil =>
    have stopped : ∀ ts : List Thread, ts.filterMap (p.advance? '\n') = [] := fun ts =>
      List.filterMap_eq_nil_iff.mpr fun t _ => bound.advance?_feed t
    rw [List.nil_append, freeScan, freeScan]
    generalize p.freePlace best arrived pos = placed
    rcases placed with ⟨best', ts⟩
    dsimp only
    rw [stopped]
    cases best' with
    | none => simp
    | some h =>
      rw [freeScan_some]
      simp
  | cons c a ih =>
    rw [List.cons_append, freeScan, freeScan]
    generalize p.freePlace best arrived pos = placed
    rcases placed with ⟨best', ts⟩
    dsimp only
    split
    · next settled =>
      have found : best'.isSome = true := (Bool.and_eq_true_iff.mp settled).2
      rw [Option.or_of_isSome found]
    · rw [ih, List.length_cons, Nat.add_right_comm pos 1, Nat.add_assoc pos]

end LineBound

end Program

namespace Finder

/-- A way to look for a match that finds the same on a line whatever stands around it. -/
structure LineBound (find : Finder) : Prop where
  inside : ∀ {before text h}, find before text = some h → h.Inside text.length
  anywhere : ∀ before before' text, find before text = find before' text
  feed : ∀ before a rest, find before (a ++ '\n' :: rest) =
    (find before a).or ((find before rest).map (·.moved (a.length + 1)))

end Finder

theorem Program.LineBound.finder {p : Program} (bound : p.LineBound) (groups : Bool) :
    (p.finder groups).LineBound := by
  rw [bound.unconditional.finder_eq]
  constructor
  case inside =>
    intro before text h found
    have inside : h.Inside (0 + text.length) := bound.inside_of_freeScan
      (fun t impossible => by cases impossible) (fun h impossible => by cases impossible) h found
    rwa [Nat.zero_add] at inside
  case anywhere => exact fun _ _ _ => rfl
  case feed =>
    intro before a rest
    have moved := p.freeScan_moved (a.length + 1) none [] 0 rest
    rw [bound.freeScan_feed, Nat.add_assoc 0, ← moved]
    rfl

/-- Matches of a text that stand in a longer one, behind some more text. -/
def Match.behind (before : List Char) : List Match → List Char → List Match × List Char
  | [], tail => ([], before ++ tail)
  | m :: ms, tail => ({ m with gap := before ++ m.gap } :: ms, tail)

namespace Finder

variable {find : Finder} {touching touching' : Bool} {before before' : Option Char}
  {text tail a rest tail' : List Char} {ms ms' : List Match}

theorem LineBound.next?_eq (bound : find.LineBound) :
    find.next? touching before text = find before text := by
  unfold next?
  cases found : find before text with
  | none => rfl
  | some h =>
    have filled : (h.length == 0) = false := by
      rw [beq_eq_false_iff_ne]
      exact Nat.pos_iff_ne_zero.mp (bound.inside found).1
    simp only [filled, Bool.and_false, Bool.false_eq_true, if_false]

/-- What stands before a text does not matter for all its matches. -/
theorem Finds.anywhere (bound : find.LineBound) (finds : find.Finds touching before text ms tail) :
    ∀ touching' before', find.Finds touching' before' text ms tail := by
  induction finds with
  | nothing next =>
    intro touching' before'
    rw [bound.next?_eq] at next
    refine .nothing ?_
    rw [bound.next?_eq, bound.anywhere before']
    exact next
  | found next _ ih =>
    intro touching' before'
    rw [bound.next?_eq] at next
    refine .found ?_ (ih true _)
    rw [bound.next?_eq, bound.anywhere before']
    exact next

/-- The matches of a text with a line feed are those before it and those behind it. -/
theorem Finds.feed (bound : find.LineBound) (first : find.Finds touching before a ms tail)
    (second : find.Finds touching' before' rest ms' tail') :
    ∀ touching before, find.Finds touching before (a ++ '\n' :: rest)
      (ms ++ (Match.behind (tail ++ ['\n']) ms' tail').1)
      (Match.behind (tail ++ ['\n']) ms' tail').2 := by
  induction first with
  | @nothing _ _ a next =>
    intro touching before
    rw [bound.next?_eq, bound.anywhere _ before] at next
    cases second with
    | nothing next' =>
      rw [bound.next?_eq, bound.anywhere _ before] at next'
      have missing : find.next? touching before (a ++ '\n' :: rest) = none := by
        rw [bound.next?_eq, bound.feed, next, next']
        rfl
      simpa [Match.behind] using Finds.nothing missing
    | @found _ _ _ _ h later next' goesOn =>
      rw [bound.next?_eq, bound.anywhere _ before] at next'
      have hit : find.next? touching before (a ++ '\n' :: rest) =
          some (h.moved (a.length + 1)) := by
        rw [bound.next?_eq, bound.feed, next, next']
        rfl
      have start : (h.moved (a.length + 1)).start = (a ++ ['\n']).length + h.start := by
        rw [List.length_append]
        exact Nat.add_comm h.start (a.length + 1)
      have whole : a ++ '\n' :: rest = a ++ ['\n'] ++ rest := List.append_cons a '\n' rest
      have gap : (a ++ '\n' :: rest).take (h.moved (a.length + 1)).start =
          a ++ ['\n'] ++ rest.take h.start := by
        rw [start, whole, List.take_length_add_append]
      have behind : (a ++ '\n' :: rest).drop (h.moved (a.length + 1)).start = rest.drop h.start := by
        rw [start, whole, List.drop_length_add_append]
      have all := Finds.found hit (by rw [behind]; exact goesOn.anywhere bound true _)
      rw [gap, behind] at all
      exact all
  | @found _ _ a _ h later next _ ih =>
    intro touching before
    rw [bound.next?_eq, bound.anywhere _ before] at next
    have hit : find.next? touching before (a ++ '\n' :: rest) = some h := by
      rw [bound.next?_eq, bound.feed, next]
      rfl
    have inside := (bound.inside next).2
    have gap : (a ++ '\n' :: rest).take h.start = a.take h.start :=
      List.take_append_of_le_length (by omega)
    have behind : (a ++ '\n' :: rest).drop h.start = a.drop h.start ++ '\n' :: rest :=
      List.drop_append_of_le_length (by omega)
    have piece : (a.drop h.start ++ '\n' :: rest).take h.length = (a.drop h.start).take h.length :=
      List.take_append_of_le_length (by rw [List.length_drop]; omega)
    have left : (a.drop h.start ++ '\n' :: rest).drop h.length =
        (a.drop h.start).drop h.length ++ '\n' :: rest :=
      List.drop_append_of_le_length (by rw [List.length_drop]; omega)
    have all := Finds.found hit (by rw [behind, left]; exact ih true _)
    rw [gap, behind, piece] at all
    exact all

end Finder

/-- The matches of a text with a line feed are those before it and those behind it. -/
theorem Program.LineBound.search_feed {p : Program} (bound : p.LineBound) (groups : Bool)
    (a rest : List Char) :
    p.search groups (a ++ '\n' :: rest) =
      ((p.search groups a).1 ++ (Match.behind ((p.search groups a).2 ++ ['\n'])
          (p.search groups rest).1 (p.search groups rest).2).1,
        (Match.behind ((p.search groups a).2 ++ ['\n'])
          (p.search groups rest).1 (p.search groups rest).2).2) := by
  have both := (p.finds_search groups a).feed (bound.finder groups) (p.finds_search groups rest)
    false none
  rcases (p.finds_search groups (a ++ '\n' :: rest)).unique both with ⟨ms, tail⟩
  exact Prod.ext ms tail

end BracketColoring

import BracketColoring.Proofs.Pattern.Backtrack
import BracketColoring.Proofs.Pattern.LineBound
import Mathlib.Data.Nat.Find

/-!
# The preferred match

A search follows all ways at once, and visits no step twice at one place. In an acyclic program it
finds all the same what trying one way after the other finds: a step that is not visited again was
visited for a thread that is preferred; it led to the end for that one, or it leads nowhere. So a
search finds the first place at which trying finds a match, and that match (`Acyclic.finder_eq`).
-/

namespace BracketColoring

namespace Program

variable {p : Program} {total : Nat} {text : List Char}

/-- What comes of a thread. `total` is the length of all text that is searched. -/
def outcome (p : Program) (total : Nat) (text : List Char) (t : Thread) : Option Hit :=
  (p.run text t.step t.names).map fun e => ⟨t.start, total - e.rest.length - t.start, e.names⟩

/-- What comes of a thread that reads next, or is at the end. -/
def settled (p : Program) (total : Nat) (text : List Char) (t : Thread) : Option Hit :=
  if p.isDone t then some ⟨t.start, total - text.length - t.start, t.names⟩
  else text.head?.bind fun c => (p.advance? c t).bind (p.outcome total text.tail)

/-- The number of steps that it takes at most to get from a step to one that reads. -/
def Rank (p : Program) (step rank : Nat) : Prop :=
  ∀ budget, p.settles budget step = true ↔ rank ≤ budget

theorem Acyclic.exists_rank (acyclic : p.Acyclic) (step : Nat) :
    ∃ rank ≤ p.steps.size + 1, p.Rank step rank := by
  have settles : ∃ budget, p.settles budget step = true := ⟨_, acyclic.settles step⟩
  refine ⟨Nat.find settles, Nat.find_min' settles (acyclic.settles step), fun budget => ?_⟩
  exact ⟨Nat.find_min' settles, fun more => settles_mono more (Nat.find_spec settles)⟩

/-- What comes of the threads at a place. -/
def foreseen (p : Program) (total : Nat) (text : List Char) (f : Front) : Option Hit :=
  f.threads.reverse.findSome? (p.settled total text)

/-- If nothing comes of the threads so far, the visited steps of low rank lead nowhere. -/
def Exhausts (p : Program) (total : Nat) (text : List Char) (rank : Nat) (f : Front) : Prop :=
  p.foreseen total text f = none → ∀ step, f.isVisited step = true →
    p.settles rank step = true → ∀ names, p.run text step names = none

theorem foreseen_push (f : Front) (t : Thread) :
    p.foreseen total text (f.push t) = (p.foreseen total text f).or (p.settled total text t) := by
  simp [foreseen, Front.push, List.findSome?_append]

/-- A thread that is not followed on its way has come as far as it gets. -/
theorem outcome_of_read {t : Thread} {s : CharSet} {next : Nat}
    (here : p.steps[t.step]? = some (.read s next)) :
    p.outcome total text t = p.settled total text t := by
  have open_ : p.isDone t = false := by simp [isDone, here]
  rw [outcome, settled, run_read here, open_]
  cases text with
  | nil => rfl
  | cons c rest =>
    simp only [afterRead, advance?, here, List.head?_cons, Option.bind_some, List.tail_cons]
    by_cases reads : s.contains c
    · simp [reads, outcome, Thread.goto]
    · simp [reads]

theorem outcome_of_done {t : Thread} (here : p.steps[t.step]? = some .done) :
    p.outcome total text t = p.settled total text t := by
  have done : p.isDone t = true := by simp [isDone, here]
  rw [outcome, settled, run_done here, done]
  rfl

theorem outcome_eq_none {t : Thread} (fails : p.outcome total text t = none) (names : List String) :
    p.run text t.step names = none := by
  rw [outcome, Option.map_eq_none_iff] at fails
  exact run_eq_none fails

/-! ## Following threads -/

theorem isVisited_visit (f : Front) (step other : Nat) :
    (f.visit step).isVisited other = true ↔ f.isVisited other = true ∨ other = step := by
  unfold Front.isVisited Front.visit
  simp only [Array.getD_eq_getD_getElem?, Array.getElem?_setIfInBounds]
  by_cases same : step = other
  · subst same
    by_cases inside : step < f.visited.size <;> simp [inside]
  · simp [same, Ne.symm same]

theorem Rank.settles {step rank : Nat} (ranked : p.Rank step rank) : p.settles rank step = true :=
  (ranked rank).mpr (Nat.le_refl rank)

namespace Exhausts

variable {f : Front} {rank : Nat}

theorem mono {lower : Nat} (exhausts : p.Exhausts total text rank f) (less : lower ≤ rank) :
    p.Exhausts total text lower f :=
  fun nothing step visited enough => exhausts nothing step visited (settles_mono less enough)

theorem push (exhausts : p.Exhausts total text rank f) (t : Thread) :
    p.Exhausts total text rank (f.push t) := by
  intro nothing
  rw [foreseen_push, Option.or_eq_none_iff] at nothing
  exact exhausts nothing.1

/-- A step that is being visited has a higher rank than those that are got to from it. -/
theorem visit {step : Nat} (exhausts : p.Exhausts total text (rank + 1) f)
    (ranked : p.Rank step (rank + 1)) : p.Exhausts total text rank (f.visit step) := by
  intro nothing other visited enough
  rcases (isVisited_visit f step other).mp visited with before | rfl
  · exact exhausts nothing other before (settles_succ enough)
  · exact absurd ((ranked rank).mp enough) (Nat.not_succ_le_self rank)

end Exhausts

/-- Following a thread adds what comes of it, and visits only steps that do not rank above it. -/
structure Followed (p : Program) (total : Nat) (text : List Char) (t : Thread) (rank : Nat)
    (f f' : Front) : Prop where
  foreseen : p.foreseen total text f' = (p.foreseen total text f).or (p.outcome total text t)
  visited : ∀ step, f'.isVisited step = true → f.isVisited step = true ∨ p.settles rank step = true
  exhausts : ∀ bound, p.Exhausts total text bound f → p.Exhausts total text bound f'

/-- A step has been visited when all steps after it have been. -/
theorem Followed.leave {t : Thread} {f f' : Front} {rank : Nat} (ranked : p.Rank t.step (rank + 1))
    (foreseen : p.foreseen total text f' = (p.foreseen total text f).or (p.outcome total text t))
    (visited : ∀ step, f'.isVisited step = true →
      (f.visit t.step).isVisited step = true ∨ p.settles rank step = true)
    (exhausts : p.Exhausts total text rank f') : p.Followed total text t (rank + 1) f f' where
  foreseen := foreseen
  visited step after := by
    rcases visited step after with before | lower
    · rcases (isVisited_visit f t.step step).mp before with before | rfl
      · exact .inl before
      · exact .inr ranked.settles
    · exact .inr (settles_succ lower)
  exhausts bound exhausted := by
    intro nothing step after enough names
    have neither := foreseen.symm.trans nothing
    rw [Option.or_eq_none_iff] at neither
    by_cases lower : p.settles rank step = true
    · exact exhausts nothing step after lower names
    · have before := (visited step after).resolve_right lower
      rcases (isVisited_visit f t.step step).mp before with before | rfl
      · exact exhausted neither.1 step before enough names
      · exact outcome_eq_none neither.2 names

theorem followed_follow (acyclic : p.Acyclic) (holds : Assertion → Bool) {budget rank : Nat}
    {t : Thread} {f : Front} (ranked : p.Rank t.step rank) (enough : rank ≤ budget)
    (exhausts : p.Exhausts total text rank f) :
    p.Followed total text t rank f (p.follow holds budget t f) := by
  induction budget generalizing t f rank with
  | zero =>
    have settles : p.settles 0 t.step = true := (ranked 0).mpr enough
    cases settles
  | succ budget ih =>
    rw [follow]
    by_cases known : f.isVisited t.step = true
    · rw [if_pos known]
      refine ⟨?_, fun _ => .inl, fun _ => id⟩
      cases nothing : p.foreseen total text f with
      | some h => rfl
      | none =>
        rw [outcome, exhausts nothing t.step known ranked.settles]
        rfl
    · rw [if_neg known]
      dsimp only
      obtain ⟨lower, rfl⟩ : ∃ lower, rank = lower + 1 := by
        cases rank with
        | zero => cases ranked.settles
        | succ lower => exact ⟨lower, rfl⟩
      have inside := exhausts.visit ranked
      have settles := ranked.settles
      rw [Program.settles] at settles
      cases here : p.steps[t.step]? with
      | none =>
        refine .leave ranked ?_ (fun _ => .inl) inside
        rw [outcome, run_none here]
        exact (Option.or_none).symm
      | some s =>
        rw [here] at settles
        cases s with
        | branch first second =>
          obtain ⟨low, low'⟩ := Bool.and_eq_true_iff.mp settles
          obtain ⟨rank, -, first'⟩ := acyclic.exists_rank first
          obtain ⟨rank', -, second'⟩ := acyclic.exists_rank second
          have less := (first' lower).mp low
          have less' := (second' lower).mp low'
          have one := ih (t := t.goto first) (f := f.visit t.step) first' (by omega)
            (inside.mono less)
          have two := ih (t := t.goto second) second' (by omega)
            ((one.exhausts lower inside).mono less')
          refine .leave ranked ?_ ?_ (two.exhausts lower (one.exhausts lower inside))
          · have comes : p.outcome total text t =
                (p.outcome total text (t.goto first)).or (p.outcome total text (t.goto second)) := by
              rw [outcome, acyclic.run_branch here, Option.map_or]
              rfl
            rw [two.foreseen, one.foreseen, comes, Option.or_assoc]
            rfl
          · intro step after
            rcases two.visited step after with between | lowest
            · exact (one.visited step between).imp id (settles_mono less)
            · exact .inr (settles_mono less' lowest)
        | mark name next =>
          obtain ⟨rank, -, next'⟩ := acyclic.exists_rank next
          have less := (next' lower).mp settles
          have one := ih (t := (t.mark name).goto next) (f := f.visit t.step) next' (by omega)
            (inside.mono less)
          refine .leave ranked ?_ ?_ (one.exhausts lower inside)
          · have comes : p.outcome total text t =
                p.outcome total text ((t.mark name).goto next) := by
              rw [outcome, outcome, acyclic.run_mark here, ← t.names_mark, Thread.goto,
                t.start_mark]
            rw [one.foreseen, comes]
            rfl
          · intro step after
            exact (one.visited step after).imp id (settles_mono less)
        | check a next => exact absurd here (acyclic.unconditional _ a next)
        | read s next =>
          refine .leave ranked ?_ (fun _ => .inl) (inside.push t)
          rw [foreseen_push, outcome_of_read here]
          rfl
        | done =>
          refine .leave ranked ?_ (fun _ => .inl) (inside.push t)
          rw [foreseen_push, outcome_of_done here]
          rfl

/-- What comes of the threads that are followed comes of those that get to a place. -/
theorem findSome?_followAll (acyclic : p.Acyclic) (holds : Assertion → Bool) (ts : List Thread) :
    (p.followAll holds ts).findSome? (p.settled total text) =
      ts.findSome? (p.outcome total text) := by
  have folded : ∀ f : Front, p.Exhausts total text (p.steps.size + 1) f →
      p.foreseen total text (ts.foldl (fun f t => p.follow holds (p.steps.size + 1) t f) f) =
        (p.foreseen total text f).or (ts.findSome? (p.outcome total text)) := by
    induction ts with
    | nil => exact fun f _ => Option.or_none.symm
    | cons t rest ih =>
      intro f exhausts
      obtain ⟨rank, less, ranked⟩ := acyclic.exists_rank t.step
      have followed := followed_follow acyclic holds ranked less (exhausts.mono less)
      rw [List.foldl_cons, ih _ (followed.exhausts _ exhausts), followed.foreseen,
        List.findSome?_cons, Option.or_assoc]
      cases p.outcome total text t <;> rfl
  have start : p.Exhausts total text (p.steps.size + 1) ⟨.replicate p.steps.size false, []⟩ := by
    intro _ step visited _ names
    have outside : p.steps.size ≤ step := by
      by_contra inside
      simp [Front.isVisited, Array.getD_eq_getD_getElem?, Nat.lt_of_not_le inside] at visited
    exact run_none (Array.getElem?_eq_none outside)
  exact folded _ start

/-! ## Searching -/

/-- The first match in a text that begins at a place or behind it, given how matches begin. -/
def leftmost (lead? : List Char → Option Ending) : List Char → Option Hit
  | [] => (lead? []).map fun e => ⟨0, 0 - e.rest.length, e.names⟩
  | c :: rest =>
    match lead? (c :: rest) with
    | some e => some ⟨0, (c :: rest).length - e.rest.length, e.names⟩
    | none => (leftmost lead? rest).map (·.moved 1)

theorem settle_done (best : Option Hit) (pos : Nat) {t : Thread} (ts : List Thread)
    (done : p.isDone t = true) :
    p.settle best pos (t :: ts) = (some ⟨t.start, pos - t.start, t.names⟩, []) := by
  simp [settle, done]

theorem settle_open (best : Option Hit) (pos : Nat) {t : Thread} (ts : List Thread)
    (open_ : p.isDone t = false) :
    p.settle best pos (t :: ts) = ((p.settle best pos ts).1, t :: (p.settle best pos ts).2) := by
  simp only [settle, List.find?_cons, open_, List.takeWhile_cons]
  cases ts.find? p.isDone <;> rfl

/-- The best match at the end of a text is what comes of its threads. -/
theorem settle_end (best : Option Hit) (ts : List Thread) :
    (p.settle best total ts).1 = (ts.findSome? (p.settled total [])).or best := by
  induction ts with
  | nil => rfl
  | cons t rest ih =>
    cases done : p.isDone t with
    | true =>
      rw [settle_done best total rest done, List.findSome?_cons, settled, if_pos done]
      rfl
    | false =>
      rw [settle_open best total rest done, ih, List.findSome?_cons, settled, done]
      rfl

/-- The threads that a place leaves, and its best match, are what comes of its threads. -/
theorem settle_cons (best : Option Hit) {pos : Nat} (ts : List Thread) (c : Char)
    (rest : List Char) (size : total = pos + (c :: rest).length) :
    (((p.settle best pos ts).2.filterMap (p.advance? c)).findSome? (p.outcome total rest)).or
        (p.settle best pos ts).1 =
      (ts.findSome? (p.settled total (c :: rest))).or best := by
  induction ts with
  | nil => rfl
  | cons t ts ih =>
    cases done : p.isDone t with
    | true =>
      have place : total - (c :: rest).length = pos := by omega
      rw [settle_done best pos ts done, List.findSome?_cons, settled, if_pos done, place]
      rfl
    | false =>
      have comes : p.settled total (c :: rest) t = (p.advance? c t).bind (p.outcome total rest) := by
        rw [settled, done]
        rfl
      rw [settle_open best pos ts done, List.findSome?_cons, comes]
      cases went : p.advance? c t with
      | none => rw [List.filterMap_cons_none went, ih, Option.bind_none]
      | some u =>
        rw [List.filterMap_cons_some went, List.findSome?_cons, Option.bind_some]
        cases p.outcome total rest u with
        | none => exact ih
        | some h => rfl

theorem findSome?_freePlace (acyclic : p.Acyclic) (total : Nat) (text : List Char)
    (best : Option Hit) (arrived : List Thread) (pos : Nat) :
    ((p.followAll (fun _ => false) (arrived ++ p.fresh best pos)).findSome?
        (p.settled total text)).or best =
      ((arrived.findSome? (p.outcome total text)).or best).or
        (p.outcome total text ⟨p.start, pos, []⟩) := by
  rw [findSome?_followAll acyclic, List.findSome?_append, Option.or_assoc, Option.or_assoc]
  cases best with
  | none => simp [fresh]
  | some h => simp [fresh]

/-- The match that begins at a place. -/
theorem outcome_start {pos : Nat} (size : total = pos + text.length) :
    p.outcome total text ⟨p.start, pos, []⟩ =
      (p.lead? text).map fun e => ⟨pos, text.length - e.rest.length, e.names⟩ := by
  have length : ∀ e : Ending, total - e.rest.length - pos = text.length - e.rest.length :=
    fun e => by omega
  simp only [outcome, lead?, length]

/-- A match begins here, or it is the first one from the next place on. -/
theorem leftmost_cons (lead? : List Char → Option Ending) (c : Char) (rest : List Char) (pos : Nat) :
    (leftmost lead? (c :: rest)).map (·.moved pos) =
      ((lead? (c :: rest)).map fun e => (⟨pos, (c :: rest).length - e.rest.length, e.names⟩ : Hit)).or
        ((leftmost lead? rest).map (·.moved (pos + 1))) := by
  rw [leftmost]
  cases lead? (c :: rest) with
  | none => simp [Hit.moved, Function.comp_def, Nat.add_assoc, Nat.add_comm 1]
  | some e => simp [Hit.moved]

/-- A search gives what comes of the threads that got to a place, or the best match so far, or the
first match from there on. -/
theorem freeScan_eq (acyclic : p.Acyclic) (best : Option Hit) (arrived : List Thread) {pos : Nat}
    {text : List Char} (size : total = pos + text.length) :
    p.freeScan best arrived pos text =
      (arrived.findSome? (p.outcome total text)).or
        (best.or ((leftmost p.lead? text).map (·.moved pos))) := by
  induction text generalizing best arrived pos with
  | nil =>
    have comes := findSome?_freePlace acyclic total [] best arrived pos
    rw [outcome_start size] at comes
    obtain rfl : total = pos := size
    rw [freeScan, freePlace, settle_end, comes, leftmost, Option.or_assoc]
    simp [Hit.moved, Function.comp_def]
  | cons c rest ih =>
    have comes := findSome?_freePlace acyclic total (c :: rest) best arrived pos
    rw [outcome_start size, ← settle_cons best _ c rest size] at comes
    have later : total = pos + 1 + rest.length := by
      rw [List.length_cons] at size
      omega
    rw [freeScan, freePlace, leftmost_cons, ← Option.or_assoc, ← Option.or_assoc, ← comes]
    generalize p.settle best pos (p.followAll (fun _ => false) (arrived ++ p.fresh best pos)) = left
    obtain ⟨best', ts⟩ := left
    dsimp only
    rw [ih best' _ later, Option.or_assoc]
    split
    · next stands =>
      obtain ⟨nothing, found⟩ := Bool.and_eq_true_iff.mp stands
      obtain ⟨h, rfl⟩ := Option.isSome_iff_exists.mp found
      rw [List.isEmpty_iff.mp nothing]
      rfl
    · rfl

/-- A search finds the first place where a match begins, and the match that trying finds there. -/
theorem Acyclic.finder_eq (acyclic : p.Acyclic) (groups : Bool) :
    p.finder groups = fun _ text => leftmost p.lead? text := by
  rw [acyclic.unconditional.finder_eq]
  funext before text
  rw [freeScan_eq acyclic none [] (Nat.zero_add _).symm]
  cases leftmost p.lead? text <;> rfl

end Program

end BracketColoring

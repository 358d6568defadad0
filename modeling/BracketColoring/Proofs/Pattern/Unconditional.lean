import BracketColoring.Proofs.Pattern.Search

/-!
# Searches without conditions

Without conditions, what is found does not depend on the characters around a place, and a search that
may begin anywhere needs fewer parameters: `Program.freeScan` is the search of such a program.
-/

namespace BracketColoring.Program

variable {p : Program}

/-- No step is a condition. -/
def Unconditional (p : Program) : Prop :=
  ∀ (i : Nat) (a : Assertion) (next : Nat), p.steps[i]? ≠ some (.check a next)

/-- What the threads at a place leave: the best match, and the threads that are preferred to it. -/
def settle (p : Program) (best : Option Hit) (pos : Nat) (ts : List Thread) :
    Option Hit × List Thread :=
  match ts.find? p.isDone with
  | some t => (some ⟨t.start, pos - t.start, t.names⟩, ts.takeWhile fun t => !p.isDone t)
  | none => (best, ts)

/-- The thread that begins at a place, as long as there is no match. -/
def fresh (p : Program) (best : Option Hit) (pos : Nat) : List Thread :=
  if best.isNone then [⟨p.start, pos, []⟩] else []

/-- One place of a search that has no conditions and may begin anywhere. -/
def freePlace (p : Program) (best : Option Hit) (arrived : List Thread) (pos : Nat) :
    Option Hit × List Thread :=
  p.settle best pos (p.followAll (fun _ => false) (arrived ++ p.fresh best pos))

/-- The best match of a search that has no conditions and may begin anywhere. -/
def freeScan (p : Program) (best : Option Hit) (arrived : List Thread) (pos : Nat) :
    List Char → Option Hit
  | [] => (p.freePlace best arrived pos).1
  | c :: rest =>
    let (best, ts) := p.freePlace best arrived pos
    if ts.isEmpty && best.isSome then best
    else freeScan p best (ts.filterMap (p.advance? c)) (pos + 1) rest

namespace Unconditional

theorem checks_eq_false (free : p.Unconditional) (kind : Assertion → Bool) :
    p.checks kind = false := by
  rw [checks, Array.any_eq_false]
  intro i inside
  have here := Array.getElem?_eq_getElem inside
  cases step : p.steps[i] with
  | check a next =>
    rw [step] at here
    exact absurd here (free i a next)
  | _ => exact Bool.false_ne_true

theorem follow_congr (free : p.Unconditional) (holds holds' : Assertion → Bool) (budget : Nat)
    (t : Thread) (f : Front) : p.follow holds budget t f = p.follow holds' budget t f := by
  induction budget generalizing t f with
  | zero => rfl
  | succ budget ih =>
    rw [follow, follow]
    split
    · rfl
    · cases here : p.steps[t.step]? with
      | none => rfl
      | some step =>
        cases step with
        | branch first second => simp only [ih]
        | mark name next => exact ih _ _
        | check a next => exact absurd here (free _ a next)
        | read s next => rfl
        | done => rfl

theorem threadsAt_eq (free : p.Unconditional) (before after : Option Char) (ts : List Thread) :
    p.threadsAt false before after ts = p.followAll (fun _ => false) ts := by
  have same : (fun f t => p.follow (fun a => a.holds before after) (p.steps.size + 1) t f) =
      fun f t => p.follow (fun _ => false) (p.steps.size + 1) t f :=
    funext fun f => funext fun t => free.follow_congr _ _ _ t f
  simp only [threadsAt, followAll, Bool.false_eq_true, if_false, same]

theorem place_eq (free : p.Unconditional) (best : Option Hit) (arrived : List Thread)
    (before after : Option Char) (pos : Nat) :
    p.place {} best arrived before after pos = p.freePlace best arrived pos := by
  have anywhere : (best.isNone && (!false || pos == 0)) = best.isNone := Bool.and_true _
  have begun : (if best.isNone && (!false || pos == 0) then [⟨p.start, pos, []⟩] else []) =
      p.fresh best pos := by
    rw [anywhere, fresh]
  calc p.place {} best arrived before after pos
    _ = p.settle best pos (p.threadsAt false before after (arrived ++
        if best.isNone && (!false || pos == 0) then [⟨p.start, pos, []⟩] else [])) := rfl
    _ = p.freePlace best arrived pos := by rw [begun, free.threadsAt_eq, freePlace]

/-- What stands before a text does not matter for its matches. -/
theorem scan_eq (free : p.Unconditional) (best : Option Hit) (arrived : List Thread)
    (before : Option Char) (pos : Nat) (text : List Char) :
    (p.scan {} best arrived before pos text).1 = p.freeScan best arrived pos text := by
  induction text generalizing best arrived before pos with
  | nil => rw [scan, freeScan, free.place_eq]
  | cons c rest ih =>
    rw [scan, freeScan, free.place_eq]
    simp only [Bool.or_false]
    split
    · rfl
    · exact ih _ _ _ _

/-- How a program without conditions looks for a match. -/
theorem finder_eq (free : p.Unconditional) (groups : Bool) :
    p.finder groups = fun _ text => p.freeScan none [] 0 text := by
  funext before text
  rw [finder, find?, free.checks_eq_false, if_neg Bool.false_ne_true, leftmost?, free.scan_eq]

end Unconditional

end BracketColoring.Program

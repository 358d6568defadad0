import BracketColoring.Proofs.Pattern.Unconditional

/-!
# Trying one way after the other

A program can also be run by trying: at a branch the first step is tried, and the second one if the
first does not lead to the end. `Program.run` is what comes of a step. In a program that gets from no
step back to it without reading (`Program.Acyclic`), what comes of a step is given by the steps after
it alone (`run_branch` and the lemmas after it).
-/

namespace BracketColoring

/-- How a match ends: the names of the groups it went through, and the text behind it. -/
structure Ending where
  names : List String
  rest : List Char
deriving DecidableEq, Repr

/-- Takes down the name of a group, unless it was taken down before. -/
def addName (name : String) (names : List String) : List String :=
  if names.contains name then names else name :: names

theorem Thread.names_mark (t : Thread) (name : String) :
    (t.mark name).names = addName name t.names := by
  unfold mark addName
  split <;> rfl

namespace Program

/-- What comes of a step at a place, given what comes of reading there. -/
def attempt (p : Program) (read : CharSet → Nat → List String → Option Ending)
    (text : List Char) : Nat → Nat → List String → Option Ending
  | 0, _, _ => none
  | budget + 1, step, names =>
    match p.steps[step]? with
    | some (.branch first second) =>
      (p.attempt read text budget first names).or (p.attempt read text budget second names)
    | some (.mark name next) => p.attempt read text budget next (addName name names)
    | some (.read s next) => read s next names
    | some .done => some ⟨names, text⟩
    | some (.check _ _) | none => none

/-- What comes of a step. The number of steps is enough to get from one to the next that reads. -/
def run (p : Program) : List Char → Nat → List String → Option Ending
  | [], step, names => p.attempt (fun _ _ _ => none) [] (p.steps.size + 1) step names
  | c :: rest, step, names =>
    p.attempt (fun s next names => if s.contains c then run p rest next names else none) (c :: rest)
      (p.steps.size + 1) step names

/-- What comes of reading a character. -/
def afterRead (p : Program) (s : CharSet) (next : Nat) (names : List String) :
    List Char → Option Ending
  | [] => none
  | c :: rest => if s.contains c then p.run rest next names else none

/-- The way in which a match begins at a text. -/
def lead? (p : Program) (text : List Char) : Option Ending := p.run text p.start []

/-- Whether a number of steps is enough to get to a step that reads or to the end, whichever steps
are preferred, and without conditions. -/
def settles (p : Program) : Nat → Nat → Bool
  | 0, _ => false
  | budget + 1, step =>
    match p.steps[step]? with
    | some (.branch first second) => p.settles budget first && p.settles budget second
    | some (.mark _ next) => p.settles budget next
    | some (.check _ _) => false
    | some (.read _ _) | some .done | none => true

/-- The program has no conditions, and gets from no step back to it without reading. -/
def Acyclic (p : Program) : Prop := ∀ step < p.steps.size, p.settles (p.steps.size + 1) step = true

instance (p : Program) : Decidable p.Acyclic := inferInstanceAs (Decidable (∀ _ < _, _))

variable {p : Program} {text : List Char} {step next first second : Nat} {names names' : List String}

theorem run_eq_attempt (p : Program) (text : List Char) (step : Nat) (names : List String) :
    p.run text step names = p.attempt (fun s next names => p.afterRead s next names text) text
      (p.steps.size + 1) step names := by
  cases text <;> rfl

/-! ## More steps than enough -/

theorem settles_succ {budget : Nat} (enough : p.settles budget step = true) :
    p.settles (budget + 1) step = true := by
  induction budget generalizing step with
  | zero => cases enough
  | succ budget ih =>
    rw [settles] at enough ⊢
    split <;> simp_all

theorem settles_mono {budget budget' : Nat} (more : budget ≤ budget')
    (enough : p.settles budget step = true) : p.settles budget' step = true := by
  induction more with
  | refl => exact enough
  | step _ ih => exact settles_succ ih

theorem attempt_succ {read : CharSet → Nat → List String → Option Ending} {budget : Nat}
    (enough : p.settles budget step = true) :
    p.attempt read text (budget + 1) step names = p.attempt read text budget step names := by
  induction budget generalizing step names with
  | zero => cases enough
  | succ budget ih =>
    rw [attempt, attempt]
    rw [settles] at enough
    split <;> simp_all

namespace Acyclic

theorem settles (acyclic : p.Acyclic) (step : Nat) : p.settles (p.steps.size + 1) step = true := by
  by_cases inside : step < p.steps.size
  · exact acyclic step inside
  · rw [Program.settles, Array.getElem?_eq_none (Nat.le_of_not_lt inside)]

theorem unconditional (acyclic : p.Acyclic) : p.Unconditional := by
  intro i a next here
  have enough := acyclic.settles i
  rw [Program.settles, here] at enough
  cases enough

/-! ## What comes of each step -/

theorem run_branch (acyclic : p.Acyclic) (here : p.steps[step]? = some (.branch first second)) :
    p.run text step names = (p.run text first names).or (p.run text second names) := by
  have enough := acyclic.settles step
  rw [Program.settles, here, Bool.and_eq_true] at enough
  rw [run_eq_attempt, run_eq_attempt p text first, run_eq_attempt p text second, attempt, here,
    attempt_succ enough.1, attempt_succ enough.2]

theorem run_mark (acyclic : p.Acyclic) {name : String}
    (here : p.steps[step]? = some (.mark name next)) :
    p.run text step names = p.run text next (addName name names) := by
  have enough := acyclic.settles step
  rw [Program.settles, here] at enough
  rw [run_eq_attempt, run_eq_attempt p text next, attempt, here, attempt_succ enough]

end Acyclic

theorem run_read {s : CharSet} (here : p.steps[step]? = some (.read s next)) :
    p.run text step names = p.afterRead s next names text := by
  rw [run_eq_attempt, attempt, here]

theorem run_done (here : p.steps[step]? = some .done) :
    p.run text step names = some ⟨names, text⟩ := by
  rw [run_eq_attempt, attempt, here]

theorem run_none (here : p.steps[step]? = none) : p.run text step names = none := by
  rw [run_eq_attempt, attempt, here]

theorem attempt_eq_none {read : CharSet → Nat → List String → Option Ending}
    (ignores : ∀ s next names names', read s next names = none → read s next names' = none)
    {budget : Nat} (fails : p.attempt read text budget step names = none) :
    p.attempt read text budget step names' = none := by
  induction budget generalizing step names names' with
  | zero => rfl
  | succ budget ih =>
    rw [attempt] at fails ⊢
    split at fails
    · rw [Option.or_eq_none_iff] at fails ⊢
      exact ⟨ih fails.1, ih fails.2⟩
    · exact ih fails
    · exact ignores _ _ _ _ fails
    · cases fails
    · rfl
    · rfl

/-- Whether a step leads to the end does not depend on the groups before it. -/
theorem run_eq_none (fails : p.run text step names = none) : p.run text step names' = none := by
  induction text generalizing step names names' with
  | nil => exact attempt_eq_none (fun _ _ _ _ => id) fails
  | cons c rest ih =>
    refine attempt_eq_none ?_ fails
    intro s next names names' fails
    by_cases reads : s.contains c
    · rw [if_pos reads] at fails ⊢
      exact ih fails
    · rw [if_neg reads]

end Program

end BracketColoring

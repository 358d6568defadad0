import BracketColoring.Proofs.Pattern.Compiled

/-!
# Patterns without loops

A program is written from its end, so that a step leads to steps that were written before it; only a
loop leads back. Where there is none the program is acyclic, whatever its size
(`acyclic_ofPattern`).
-/

namespace BracketColoring

namespace Pattern

/-- There are no loops in the pattern, and no conditions. -/
def isStraight : Pattern → Bool
  | check _ => false
  | repeated .. => false
  | group _ p => p.isStraight
  | seq a b => a.isStraight && b.isStraight
  | alt a b => a.isStraight && b.isStraight
  | _ => true

theorem isSteady_of_isStraight {p : Pattern} (straight : p.isStraight = true) :
    p.isSteady = true := by
  induction p with
  | check a => cases straight
  | repeated p least most greedy _ => cases straight
  | group name p ih => exact ih straight
  | seq a b iha ihb =>
    rw [isStraight, Bool.and_eq_true] at straight
    rw [isSteady, iha straight.1, ihb straight.2]
    rfl
  | alt a b iha ihb =>
    rw [isStraight, Bool.and_eq_true] at straight
    rw [isSteady, iha straight.1, ihb straight.2]
    rfl
  | _ => rfl

end Pattern

/-- The steps that can be got to without reading stand below an index. -/
def Step.LeadsBelow (index : Nat) : Step → Prop
  | .branch first second => first < index ∧ second < index
  | .mark _ next => next < index
  | .check _ _ => False
  | .read _ _ => True
  | .done => True

namespace Program

/-- Every step of a code leads to steps that stand before it. -/
def Descends (code : Array Step) : Prop :=
  ∀ (i : Nat) (step : Step), code[i]? = some step → step.LeadsBelow i

/-- Behind steps that descend, the writer adds steps that descend. -/
structure KeepsDescending (w : Writer) : Prop where
  inside : ∀ {next code}, next < code.size → (w next code).1 < (w next code).2.size
  grows : ∀ next code, code.size ≤ (w next code).2.size
  descends : ∀ {next code}, next < code.size → Descends code → Descends (w next code).2

theorem Descends.push {code : Array Step} (descends : Descends code) {step : Step}
    (below : step.LeadsBelow code.size) : Descends (code.push step) := by
  intro i step' here
  rcases Nat.lt_trichotomy i code.size with before | rfl | behind
  · rw [Array.getElem?_push_lt before, ← Array.getElem?_eq_getElem before] at here
    exact descends i step' here
  · rw [Array.getElem?_push_size] at here
    cases here
    exact below
  · rw [Array.getElem?_eq_none (by rw [Array.size_push]; omega)] at here
    cases here

namespace KeepsDescending

variable {w w' : Writer}

theorem skip : KeepsDescending fun next code => (next, code) where
  inside := id
  grows _ _ := Nat.le_refl _
  descends _ := id

theorem comp (first : KeepsDescending w) (second : KeepsDescending w') :
    KeepsDescending (fun next code => let (next, code) := w' next code; w next code) where
  inside bound := first.inside (second.inside bound)
  grows next code := Nat.le_trans (second.grows next code) (first.grows _ _)
  descends bound before := first.descends (second.inside bound) (second.descends bound before)

theorem add (step : Nat → Step)
    (below : ∀ {next index}, next < index → (step next).LeadsBelow index) :
    KeepsDescending fun next code => add (step next) code where
  inside _ := by simp [Program.add]
  grows _ _ := by simp [Program.add]
  descends bound before := before.push (below bound)

theorem branch (first : KeepsDescending w) (second : KeepsDescending w') :
    KeepsDescending
      (fun next code =>
        let (second, code) := w' next code
        let (first, code) := w next code
        Program.add (.branch first second) code) where
  inside _ := by simp [Program.add]
  grows next code := by
    have longer := Nat.le_trans (second.grows next code) (first.grows next (w' next code).2)
    simp only [Program.add, Array.size_push]
    omega
  descends {next code} bound before := by
    have between : next < (w' next code).2.size := Nat.lt_of_lt_of_le bound (second.grows _ _)
    refine (first.descends between (second.descends bound before)).push ⟨first.inside between, ?_⟩
    exact Nat.lt_of_lt_of_le (second.inside bound) (first.grows _ _)

theorem literal (text : List Char) : KeepsDescending (writeLiteral text) := by
  induction text with
  | nil => exact skip
  | cons c rest ih => exact (add (.read (.single c)) fun _ => trivial).comp ih

theorem write (q : Pattern) (straight : q.isStraight = true) :
    KeepsDescending (Program.write q) := by
  induction q with
  | empty => exact skip
  | literal text => exact literal text
  | set s => exact add (.read s) fun _ => trivial
  | check a => cases straight
  | group name q ih =>
    cases name with
    | none => exact ih straight
    | some name => exact (ih straight).comp (add (.mark name) id)
  | repeated q least most greedy _ => cases straight
  | seq a b iha ihb =>
    rw [Pattern.isStraight, Bool.and_eq_true] at straight
    exact (iha straight.1).comp (ihb straight.2)
  | alt a b iha ihb =>
    rw [Pattern.isStraight, Bool.and_eq_true] at straight
    exact (iha straight.1).branch (ihb straight.2)

end KeepsDescending

/-- As many steps as stand up to a step are enough to get to one that reads. -/
theorem settles_of_descends {p : Program} (descends : Descends p.steps) (step : Nat) :
    p.settles (step + 1) step = true := by
  induction step using Nat.strongRecOn with
  | _ step ih =>
    have enough : ∀ lower < step, p.settles step lower = true := fun lower below =>
      settles_mono (Nat.succ_le_of_lt below) (ih lower below)
    rw [settles]
    split
    · next here =>
      obtain ⟨first, second⟩ := descends _ _ here
      rw [enough _ first, enough _ second]
      rfl
    · next here => exact enough _ (descends _ _ here)
    · next here => exact (descends _ _ here).elim
    all_goals rfl

theorem acyclic_ofPattern {q : Pattern} (straight : q.isStraight = true) :
    (ofPattern q).Acyclic := by
  have ended : Descends #[Step.done] := by
    intro i step here
    cases i with
    | zero => cases here; trivial
    | succ i => cases here
  have start : 0 < #[Step.done].size := Nat.zero_lt_one
  have descends : Descends (ofPattern q).steps :=
    (KeepsDescending.write q straight).descends start ended
  intro step inside
  exact settles_mono (by omega) (settles_of_descends descends step)

end Program

end BracketColoring

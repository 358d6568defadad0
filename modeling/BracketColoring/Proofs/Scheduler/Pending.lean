import BracketColoring.Scheduler

/-!
# What waits in a scheduler

An edit leaves the lower of its line and the line that waited before, and puts the time off. Giving
out the work gives out that line and leaves nothing waiting; a poll does this when it is due, and
otherwise changes nothing. So a time is set exactly when a line waits (`Paired`). Nothing is handed
to subscribers on the way.
-/

namespace BracketColoring.Scheduler

variable {s : Scheduler}

@[simp] theorem dirtyLine?_reset : s.reset.dirtyLine? = none := rfl

theorem dirtyLine?_noteEdit (line now : Nat) :
    (s.noteEdit line now).value.2.dirtyLine? = some (s.dirtyLine?.elim line (min · line)) := by
  unfold noteEdit
  by_cases immediate : s.delay = 0 <;> cases waiting : s.pending <;>
    simp [immediate, waiting, dirtyLine?]

theorem deadline?_noteEdit (line now : Nat) :
    (s.noteEdit line now).value.2.deadline? = some (now + s.delay) := by
  unfold noteEdit
  by_cases immediate : s.delay = 0 <;> simp [immediate, deadline?]

theorem delay_noteEdit (line now : Nat) : (s.noteEdit line now).value.2.delay = s.delay := by
  unfold noteEdit
  by_cases immediate : s.delay = 0 <;> simp [immediate]

theorem reset_noteEdit (line now : Nat) : (s.noteEdit line now).value.2.reset = s.reset := by
  unfold noteEdit
  by_cases immediate : s.delay = 0 <;> simp [immediate, reset]

theorem take_value : s.take.value = (s.dirtyLine?, s.reset) := rfl

/-- Whether the time has come to give out what waits. -/
def isDue (s : Scheduler) (now : Nat) : Bool := s.deadline?.any (· ≤ now)

theorem isDue_iff {now : Nat} : s.isDue now ↔ ∃ due, s.deadline? = some due ∧ due ≤ now := by
  simp [isDue, Option.any_eq_true]

theorem poll_eq (s : Scheduler) (now : Nat) :
    s.poll now = if s.isDue now then s.take else pure (none, s) := by
  unfold poll isDue deadline?
  cases s.due <;> simp

theorem poll_value (now : Nat) :
    (s.poll now).value = (s.dirtyLine?, s.reset) ∨ (s.poll now).value = (none, s) := by
  rw [poll_eq]
  by_cases due : s.isDue now
  · rw [if_pos due]
    exact .inl take_value
  · rw [if_neg due]
    exact .inr rfl

theorem delay_poll (now : Nat) : (s.poll now).value.2.delay = s.delay := by
  rcases s.poll_value now with fired | waits
  · rw [fired]
    rfl
  · rw [waits]

/-- A line waits if and only if a time is set. -/
def Paired (s : Scheduler) : Prop := s.dirtyLine? = none ↔ s.deadline? = none

theorem paired_reset (s : Scheduler) : s.reset.Paired := by
  simp [Paired, reset, dirtyLine?, deadline?]

theorem paired_noteEdit (line now : Nat) : (s.noteEdit line now).value.2.Paired := by
  simp [Paired, dirtyLine?_noteEdit, deadline?_noteEdit]

theorem Paired.poll (paired : s.Paired) (now : Nat) : (s.poll now).value.2.Paired := by
  rcases s.poll_value now with fired | waits
  · rw [fired]
    exact s.paired_reset
  · rwa [waits]

theorem Paired.exists_dirtyLine? (paired : s.Paired) {now : Nat} (due : s.isDue now) :
    ∃ line, s.dirtyLine? = some line := by
  obtain ⟨time, set, -⟩ := isDue_iff.mp due
  refine Option.ne_none_iff_exists'.mp fun idle => ?_
  cases (paired.mp idle).symm.trans set

theorem renders_take (s : Scheduler) : s.take.renders = [] := by
  simp [take]

theorem renders_poll (s : Scheduler) (now : Nat) : (s.poll now).renders = [] := by
  rw [poll_eq]
  split
  · exact s.renders_take
  · rfl

end BracketColoring.Scheduler

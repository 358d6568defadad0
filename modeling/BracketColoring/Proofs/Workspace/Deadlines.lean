import BracketColoring.Proofs.Workspace.Command

/-!
# Deadlines of a workspace

A host polls a workspace and then sleeps until the next deadline. It misses nothing by this, because
in every session a time is set exactly when a line waits (`Paired`): a poll runs the passes that are
due and no others, and what is left is due later (`polls_on_time`).
-/

namespace BracketColoring

variable {τ : Type} [Tokenizer τ]

namespace Session

variable {s : Session τ}

omit [Tokenizer τ] in
theorem paired_create (settings : Settings) (tokenizer : τ) (text : String) :
    (create settings tokenizer text).scheduler.Paired := by
  simp [create, Scheduler.Paired, Scheduler.dirtyLine?, Scheduler.deadline?]

omit [Tokenizer τ] in
theorem paired_prepare (paired : s.scheduler.Paired) (op : Operation) :
    (s.prepare op).2.scheduler.Paired := by
  cases op with
  | subscribe id => exact paired
  | edit line text now =>
    simp only [prepare]
    split
    · exact Scheduler.paired_reset _
    · exact Scheduler.paired_noteEdit line now
  | poll now => exact paired.poll now
  | flush => exact Scheduler.paired_reset _
  | refresh => exact Scheduler.paired_reset _
  | setSettings settings => exact Scheduler.paired_reset _

theorem paired_apply (paired : s.scheduler.Paired) (op : Operation) :
    (s.apply op).value.2.scheduler.Paired := by
  have prepared := paired_prepare paired op
  rw [apply_value]
  cases (s.prepare op).1 with
  | none => exact prepared
  | some dirty => rwa [runPass?, scheduler_runPass]

theorem paired_after (paired : s.scheduler.Paired) (ops : List Operation) :
    (s.after ops).scheduler.Paired := by
  induction ops generalizing s with
  | nil => exact paired
  | cons op rest ih => exact ih (paired_apply paired op)

/-- The pass that a poll runs when it is due: from the line that waits, with nothing waiting. -/
def duePass (s : Session τ) (dirty : Nat) : PassOutcome × Session τ :=
  ({ s with scheduler := s.scheduler.reset }.runPass dirty).value

theorem deadline?_duePass (s : Session τ) (dirty : Nat) :
    (s.duePass dirty).2.scheduler.deadline? = none := by
  rw [duePass, scheduler_runPass]
  rfl

theorem poll_of_due {now dirty : Nat} (due : s.scheduler.isDue now)
    (waits : s.scheduler.dirtyLine? = some dirty) :
    (s.poll now).value = (some (s.duePass dirty).1, (s.duePass dirty).2) := by
  have ran := s.apply_value (.poll now)
  simp only [prepare, Scheduler.poll_eq, if_pos due, Scheduler.take_value, waits] at ran
  exact ran

theorem poll_of_early {now : Nat} (early : ¬ s.scheduler.isDue now) :
    (s.poll now).value = (none, s) := by
  have ran := s.apply_value (.poll now)
  simp only [prepare, Scheduler.poll_eq, if_neg early] at ran
  exact ran

end Session

namespace Workspace

variable {w : Workspace τ} {settings : Settings} {provider : String → Option τ}

/-! ## What a host can reach -/

/-- The workspaces that come from a new one by commands, and by operations on single sessions. -/
inductive Reached (settings : Settings) (provider : String → Option τ) : Workspace τ → Prop
  | new : Reached settings provider (create settings provider)
  | command {w : Workspace τ} (c : Command) :
      Reached settings provider w → Reached settings provider (w.apply c)
  | direct {w : Workspace τ} (id : DocumentId) (op : Operation) :
      Reached settings provider w →
        Reached settings provider (w.onSession id fun s => s.apply op).value.2

theorem Reached.after (reached : Reached settings provider w) (cs : List Command) :
    Reached settings provider (w.after cs) := by
  induction cs generalizing w with
  | nil => exact reached
  | cons c rest ih => exact ih (reached.command c)

/-- Documents are numbered in order, and in each a time is set exactly when a line waits. -/
structure Timed (w : Workspace τ) : Prop where
  numbered : w.Numbered
  paired : ∀ d ∈ w.documents, d.session.scheduler.Paired

omit [Tokenizer τ] in
theorem ids_setSession (w : Workspace τ) (id : DocumentId) (session : Session τ) :
    (w.setSession id session).ids = w.ids := by
  simp only [setSession, ids, List.map_map]
  refine List.map_congr_left fun d _ => ?_
  simp only [Function.comp_apply]
  split <;> rfl

omit [Tokenizer τ] in
theorem Timed.setSession (timed : w.Timed) (id : DocumentId) {session : Session τ}
    (paired : session.scheduler.Paired) : (w.setSession id session).Timed := by
  have same := w.ids_setSession id session
  constructor
  case numbered =>
    refine ⟨same ▸ timed.numbered.ascending, fun d membership => ?_⟩
    have listed : d.id ∈ w.ids := same ▸ List.mem_map_of_mem membership
    obtain ⟨d', membership', number⟩ := List.mem_map.mp listed
    exact number ▸ timed.numbered.below d' membership'
  case paired =>
    intro d membership
    obtain ⟨d', membership', rfl⟩ := List.mem_map.mp membership
    split
    · exact paired
    · exact timed.paired d' membership'

theorem Timed.onSession (timed : w.Timed) (id : DocumentId) (op : Operation) :
    (w.onSession id fun s => s.apply op).value.2.Timed := by
  unfold Workspace.onSession
  cases found : w.session? id with
  | none => exact timed
  | some session =>
    obtain ⟨d, membership, -, rfl⟩ := timed.numbered.session?_eq_some_iff.mp found
    exact timed.setSession id (Session.paired_apply (timed.paired d membership) op)

theorem Timed.apply (timed : w.Timed) (c : Command) : (w.apply c).Timed := by
  refine ⟨timed.numbered.apply c, fun d membership => ?_⟩
  rcases (mem_documents_apply timed.numbered).mp membership with ⟨d', old, -, rfl⟩ | opened
  · exact Session.paired_after (timed.paired d' old) _
  · obtain ⟨text, tokenizer, -, -, -, session⟩ := opened?_eq_some_iff.mp opened
    rw [session]
    exact Session.paired_after (Session.paired_create w.settings tokenizer text) _

theorem Timed.of_reached (reached : Reached settings provider w) : w.Timed := by
  induction reached with
  | new => exact ⟨numbered_create settings provider, by simp [create]⟩
  | command c _ ih => exact ih.apply c
  | direct id op _ ih => exact ih.onSession id op

/-! ## One poll -/

omit [Tokenizer τ] in
theorem exists_of_nextDeadline? {due : Nat} (next : w.nextDeadline? = some due) :
    ∃ d ∈ w.documents, d.session.scheduler.deadline? = some due :=
  List.mem_filterMap.mp (List.min?_eq_some_iff.mp next).1

omit [Tokenizer τ] in
theorem nextDeadline?_le {due : Nat} {d : OpenDocument τ} (membership : d ∈ w.documents)
    (set : d.session.scheduler.deadline? = some due) :
    ∃ next, w.nextDeadline? = some next ∧ next ≤ due := by
  have listed : due ∈ w.documents.filterMap (·.session.scheduler.deadline?) :=
    List.mem_filterMap.mpr ⟨d, membership, set⟩
  cases next : w.nextDeadline? with
  | none =>
    rw [List.min?_eq_none_iff.mp next] at listed
    cases listed
  | some earliest => exact ⟨earliest, rfl, (List.min?_eq_some_iff.mp next).2 due listed⟩

theorem step_poll (d : OpenDocument τ) (now : Nat) :
    d.step (.poll now) = { d with session := (d.session.poll now).value.2 } := rfl

theorem step_of_early {d : OpenDocument τ} {now : Nat} (early : ¬ d.session.scheduler.isDue now) :
    d.step (.poll now) = d := by
  rw [step_poll, Session.poll_of_early early]

theorem step_of_due {d : OpenDocument τ} {now dirty : Nat} (due : d.session.scheduler.isDue now)
    (waits : d.session.scheduler.dirtyLine? = some dirty) :
    d.step (.poll now) = { d with session := (d.session.duePass dirty).2 } := by
  rw [step_poll, Session.poll_of_due due waits]

theorem polled_ids (timed : w.Timed) (now : Nat) :
    (w.poll now).value.1.map (·.1) =
      (w.documents.filter fun d => d.session.scheduler.isDue now).map (·.id) := by
  rw [poll_value, List.map_filterMap, ← List.filterMap_eq_map, List.filterMap_filter]
  refine List.filterMap_congr fun d membership => ?_
  by_cases due : d.session.scheduler.isDue now
  · obtain ⟨dirty, waits⟩ := (timed.paired d membership).exists_dirtyLine? due
    simp [Session.poll_of_due due waits, due]
  · simp [Session.poll_of_early due, due]

/-- What is left after a poll is due later. -/
theorem lt_nextDeadline?_poll (timed : w.Timed) {now due : Nat}
    (next : (w.poll now).value.2.nextDeadline? = some due) : now < due := by
  obtain ⟨d, membership, set⟩ := exists_of_nextDeadline? next
  rw [poll_value] at membership
  obtain ⟨d', old, rfl⟩ := List.mem_map.mp membership
  by_cases isDue : d'.session.scheduler.isDue now
  · obtain ⟨dirty, waits⟩ := (timed.paired d' old).exists_dirtyLine? isDue
    rw [step_of_due isDue waits, Session.deadline?_duePass] at set
    cases set
  · rw [step_of_early isDue] at set
    exact Nat.lt_of_not_le fun reached => isDue (Scheduler.isDue_iff.mpr ⟨due, set, reached⟩)

theorem poll_of_all_early {now : Nat} (early : ∀ d ∈ w.documents, ¬ d.session.scheduler.isDue now) :
    (w.poll now).value = ([], w) := by
  rw [poll_value]
  have nothing : (w.documents.filterMap fun d =>
      (d.session.poll now).value.1.map fun o => (d.id, o)) = [] := by
    refine List.filterMap_eq_nil_iff.mpr fun d membership => ?_
    rw [Session.poll_of_early (early d membership)]
    rfl
  have same : w.documents.map (.step (.poll now)) = w.documents :=
    (List.map_congr_left fun d membership => step_of_early (early d membership)).trans (List.map_id' _)
  rw [nothing, same]

/-- What a poll at some time does, and when the next one is needed. -/
structure PollsOnTime (w : Workspace τ) (now : Nat) : Prop where
  ran : (w.poll now).value.1.map (·.1) =
    (w.documents.filter fun d => d.session.scheduler.isDue now).map (·.id)
  ascending : ((w.poll now).value.1.map (·.1)).Pairwise (· < ·)
  passes : ∀ d ∈ w.documents, d.session.scheduler.isDue now →
    ∃ dirty, d.session.scheduler.dirtyLine? = some dirty ∧
      (d.id, (d.session.duePass dirty).1) ∈ (w.poll now).value.1 ∧
      (w.poll now).value.2.session? d.id = some (d.session.duePass dirty).2
  unchanged : ∀ d ∈ w.documents, ¬ d.session.scheduler.isDue now →
    (w.poll now).value.2.find? d.id = some d
  next : ∀ due, (w.poll now).value.2.nextDeadline? = some due → now < due
  early : (∀ due, w.nextDeadline? = some due → now < due) → (w.poll now).value = ([], w)
  idle : w.nextDeadline? = none ↔ ∀ d ∈ w.documents, d.session.scheduler.dirtyLine? = none

theorem polls_on_time (reached : Reached settings provider w) (now : Nat) : w.PollsOnTime now := by
  have timed := Timed.of_reached reached
  have after : (w.poll now).value.2.Numbered := (timed.apply (.poll now)).numbered
  have stepped : ∀ d ∈ w.documents, d.step (.poll now) ∈ (w.poll now).value.2.documents := by
    intro d membership
    rw [poll_value]
    exact List.mem_map_of_mem membership
  constructor
  case ran => exact polled_ids timed now
  case ascending => exact pairwise_poll timed.numbered now
  case passes =>
    intro d membership due
    obtain ⟨dirty, waits⟩ := (timed.paired d membership).exists_dirtyLine? due
    refine ⟨dirty, waits, ?_, ?_⟩
    · refine (mem_poll_iff timed.numbered).mpr ⟨d.session, ?_, ?_⟩
      · exact timed.numbered.session?_eq_some_iff.mpr ⟨d, membership, rfl, rfl⟩
      · rw [Session.poll_of_due due waits]
    · have passed := stepped d membership
      rw [step_of_due due waits] at passed
      exact after.session?_eq_some_iff.mpr ⟨_, passed, rfl, rfl⟩
  case unchanged =>
    intro d membership early
    have same := stepped d membership
    rw [step_of_early early] at same
    exact after.find?_eq_some_iff.mpr ⟨same, rfl⟩
  case next => exact fun due next => lt_nextDeadline?_poll timed next
  case early =>
    intro early
    refine poll_of_all_early fun d membership isDue => ?_
    obtain ⟨due, set, reached⟩ := Scheduler.isDue_iff.mp isDue
    obtain ⟨next, first, before⟩ := nextDeadline?_le membership set
    have later := early next first
    omega
  case idle =>
    constructor
    · intro idle d membership
      refine (timed.paired d membership).mpr (Option.eq_none_iff_forall_ne_some.mpr ?_)
      intro due set
      obtain ⟨next, first, -⟩ := nextDeadline?_le membership set
      cases idle.symm.trans first
    · intro idle
      refine Option.eq_none_iff_forall_ne_some.mpr fun due next => ?_
      obtain ⟨d, membership, set⟩ := exists_of_nextDeadline? next
      cases ((timed.paired d membership).mp (idle d membership)).symm.trans set

/-- A pass has failed, and one document is edited by its session. -/
theorem polls_on_time_after_failure :
    let provider : String → Option (Scripted bare) := fun _ => some ⟨[false, true]⟩
    let start := (create .classic provider).after [.openDocument "lisp" "()",
      .openDocument "scheme" "()", .edit 0 0 "(()" 0, .edit 1 0 "()()" 60, .poll 200,
      .edit 0 0 "(())" 90]
    let w := (start.onSession 1 fun s => s.apply (.edit 0 "(" 70)).value.2
    Reached .classic provider w ∧ w.nextDeadline? = some 270 ∧ w.PollsOnTime 270 ∧
      (w.poll 270).value.1.map (·.1) = [1] ∧ (w.poll 270).value.2.nextDeadline? = some 290 := by
  intro provider start w
  have opened : Reached .classic provider start := .after .new _
  have reached : Reached .classic provider w := .direct 1 (.edit 0 "(" 70) opened
  refine ⟨reached, ?_, polls_on_time reached 270, ?_⟩
  · decide +kernel
  · decide +kernel

end Workspace

end BracketColoring

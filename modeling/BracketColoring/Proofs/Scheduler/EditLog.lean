import Mathlib.Data.List.Induction
import Mathlib.Data.Nat.Find
import BracketColoring.Proofs.Scheduler.Pending

/-!
# Edits that wait

The calls to a scheduler have a log: the edits that were noted since a call last gave out a line or
dropped the work. The scheduler keeps only two numbers of it, the lowest line and the time of the
last edit with the delay of then (`Shows`), and these are enough to answer as the log says. So every
edit has one fate (`Fate`): one later call gives it out, or it is dropped, or it still waits.
-/

namespace BracketColoring.Scheduler

/-- A call to a scheduler. -/
inductive Call where
  | noteEdit (line now : Nat)
  | poll (now : Nat)
  | take
  | reset
  | setDelay (delay : Nat)
deriving DecidableEq, Repr

/-- A call that was made, with the line that it gave out. -/
structure Answer where
  call : Call
  fired : Option Nat
deriving DecidableEq, Repr

/-- Whether a call leaves no edit waiting. -/
def Answer.clears (a : Answer) : Bool :=
  match a.call with
  | .poll _ | .take => a.fired.isSome
  | .reset => true
  | .noteEdit .. | .setDelay _ => false

/-- An edit that was noted, with the delay in force then. Its place is the number of calls before
it. -/
structure NotedEdit where
  place : Nat
  line : Nat
  now : Nat
  delay : Nat
deriving DecidableEq, Repr

def NotedEdit.due (e : NotedEdit) : Nat := e.now + e.delay

/-- The number of calls so far, the delay in force, and the edits that wait. -/
structure EditLog where
  calls : Nat
  delay : Nat
  edits : List NotedEdit
deriving DecidableEq, Repr

namespace EditLog

def enter (l : EditLog) (a : Answer) : EditLog where
  calls := l.calls + 1
  delay :=
    match a.call with
    | .setDelay delay => delay
    | _ => l.delay
  edits :=
    match a.call with
    | .noteEdit line now => l.edits ++ [⟨l.calls, line, now, l.delay⟩]
    | _ => if a.clears then [] else l.edits

/-- The log of some calls to a new scheduler. -/
def ofAnswers (delay : Nat) (as : List Answer) : EditLog := as.foldl enter ⟨0, delay, []⟩

def lowest? (l : EditLog) : Option Nat := (l.edits.map (·.line)).min?

/-- When the last edit is due. -/
def due? (l : EditLog) : Option Nat := l.edits.getLast?.map NotedEdit.due

variable {l : EditLog} {delay : Nat} {as : List Answer}

theorem ofAnswers_concat (a : Answer) :
    ofAnswers delay (as ++ [a]) = (ofAnswers delay as).enter a := by
  simp [ofAnswers]

theorem calls_ofAnswers : (ofAnswers delay as).calls = as.length := by
  induction as using List.reverseRecOn with
  | nil => rfl
  | append_singleton as a ih => simp [ofAnswers_concat, enter, ih]

theorem lowest?_eq_none_iff : l.lowest? = none ↔ l.edits = [] := by
  simp [lowest?, List.min?_eq_none_iff]

theorem due?_eq_none_iff : l.due? = none ↔ l.edits = [] := by
  simp [due?]

theorem exists_lowest (busy : l.edits ≠ []) : ∃ line, l.lowest? = some line :=
  Option.ne_none_iff_exists'.mp fun idle => busy (lowest?_eq_none_iff.mp idle)

theorem lowest?_le {line : Nat} (lowest : l.lowest? = some line) {e : NotedEdit}
    (waits : e ∈ l.edits) : line ≤ e.line :=
  (List.min?_eq_some_iff.mp lowest).2 e.line (List.mem_map_of_mem waits)

theorem lowest?_enter_noteEdit (line now : Nat) (fired : Option Nat) :
    (l.enter ⟨.noteEdit line now, fired⟩).lowest? = some (l.lowest?.elim line (min · line)) := by
  simp only [lowest?, enter, List.map_append, List.map_cons, List.map_nil]
  cases l.edits.map (·.line) with
  | nil => rfl
  | cons first rest =>
    rw [List.cons_append, List.min?_cons', List.foldl_append, List.min?_cons']
    rfl

theorem due?_enter_noteEdit (line now : Nat) (fired : Option Nat) :
    (l.enter ⟨.noteEdit line now, fired⟩).due? = some (now + l.delay) := by
  simp [due?, enter, NotedEdit.due]

theorem mem_edits_enter {a : Answer} {e : NotedEdit} :
    e ∈ (l.enter a).edits ↔
      e ∈ l.edits ∧ a.clears = false ∨
        a.call = .noteEdit e.line e.now ∧ e.place = l.calls ∧ e.delay = l.delay := by
  obtain ⟨call, fired⟩ := a
  obtain ⟨place, line, now, delay⟩ := e
  cases call with
  | noteEdit line' now' =>
    simp only [enter, Answer.clears, List.mem_append, List.mem_singleton, and_true,
      NotedEdit.mk.injEq, Call.noteEdit.injEq]
    tauto
  | setDelay delay' => simp [enter, Answer.clears]
  | reset => simp [enter, Answer.clears]
  | poll now' => cases fired <;> simp [enter, Answer.clears]
  | take => cases fired <;> simp [enter, Answer.clears]

theorem getElem?_concat_eq_some_iff {α : Type} {xs : List α} {x y : α} {j : Nat} :
    (xs ++ [x])[j]? = some y ↔ xs[j]? = some y ∨ j = xs.length ∧ x = y := by
  rcases Nat.lt_trichotomy j xs.length with inside | rfl | beyond
  · simp [List.getElem?_append_left inside, Nat.ne_of_lt inside]
  · simp
  · have outside : (xs ++ [x])[j]? = none := by
      rw [List.getElem?_eq_none_iff, List.length_append, List.length_singleton]
      omega
    simp [outside, Nat.le_of_lt beyond, Nat.ne_of_gt beyond]

/-- An edit is in the log from its call on until a call clears the log. -/
theorem mem_edits_iff {e : NotedEdit} :
    e ∈ (ofAnswers delay as).edits ↔
      (∃ a, as[e.place]? = some a ∧ a.call = .noteEdit e.line e.now ∧
        e.delay = (ofAnswers delay (as.take e.place)).delay) ∧
      ∀ j a, e.place < j → as[j]? = some a → a.clears = false := by
  induction as using List.reverseRecOn with
  | nil => simp [ofAnswers]
  | append_singleton as a ih =>
    rw [ofAnswers_concat, mem_edits_enter, ih, calls_ofAnswers]
    constructor
    · rintro (⟨⟨⟨noted, here, call, inForce⟩, quiet⟩, keeps⟩ | ⟨call, last, inForce⟩)
      · obtain ⟨inside, -⟩ := List.getElem?_eq_some_iff.mp here
        refine ⟨⟨noted, getElem?_concat_eq_some_iff.mpr (.inl here), call, ?_⟩, ?_⟩
        · rwa [List.take_append_of_le_length (Nat.le_of_lt inside)]
        · intro j a' later there
          rcases getElem?_concat_eq_some_iff.mp there with earlier | ⟨-, rfl⟩
          · exact quiet j a' later earlier
          · exact keeps
      · refine ⟨⟨a, getElem?_concat_eq_some_iff.mpr (.inr ⟨last, rfl⟩), call, ?_⟩, ?_⟩
        · rw [last, List.take_left]
          exact inForce
        · intro j a' later there
          obtain ⟨inside, -⟩ := List.getElem?_eq_some_iff.mp there
          rw [List.length_append, List.length_singleton] at inside
          omega
    · rintro ⟨⟨noted, here, call, inForce⟩, quiet⟩
      rcases getElem?_concat_eq_some_iff.mp here with earlier | ⟨last, rfl⟩
      · obtain ⟨inside, -⟩ := List.getElem?_eq_some_iff.mp earlier
        rw [List.take_append_of_le_length (Nat.le_of_lt inside)] at inForce
        refine .inl ⟨⟨⟨noted, earlier, call, inForce⟩, ?_⟩, ?_⟩
        · intro j a' later there
          exact quiet j a' later (getElem?_concat_eq_some_iff.mpr (.inl there))
        · exact quiet as.length a inside (getElem?_concat_eq_some_iff.mpr (.inr ⟨rfl, rfl⟩))
      · rw [last, List.take_left] at inForce
        exact .inr ⟨call, last, inForce⟩

end EditLog

/-! ## One call -/

/-- The line that a call gives out, and the scheduler after it. -/
def call (s : Scheduler) : Call → Option Nat × Scheduler
  | .noteEdit line now => (none, (s.noteEdit line now).value.2)
  | .poll now => (s.poll now).value
  | .take => s.take.value
  | .reset => (none, s.reset)
  | .setDelay delay => (none, s.setDelay delay)

def answer (s : Scheduler) (c : Call) : Answer := ⟨c, (s.call c).1⟩

/-- The scheduler shows what the log says. -/
structure Shows (s : Scheduler) (l : EditLog) : Prop where
  delay : s.delay = l.delay
  line : s.dirtyLine? = l.lowest?
  due : s.deadline? = l.due?

namespace Shows

variable {s : Scheduler} {l : EditLog}

theorem idle_iff (shows : s.Shows l) :
    l.edits = [] ↔ s.dirtyLine? = none ∧ s.deadline? = none := by
  rw [shows.line, shows.due, EditLog.lowest?_eq_none_iff, EditLog.due?_eq_none_iff, and_self]

theorem reset_of_idle (shows : s.Shows l) (empty : l.edits = []) : s.reset = s := by
  obtain ⟨line, due⟩ := shows.idle_iff.mp empty
  exact congrArg₂ (Scheduler.mk s.delay) line.symm due.symm

theorem take_value (shows : s.Shows l) :
    s.take.value = if l.edits = [] then (none, s) else (l.lowest?, s.reset) := by
  rw [Scheduler.take_value, shows.line]
  by_cases empty : l.edits = []
  · rw [if_pos empty, EditLog.lowest?_eq_none_iff.mpr empty, shows.reset_of_idle empty]
  · rw [if_neg empty]

theorem busy_of_isDue (shows : s.Shows l) {now : Nat} (due : s.isDue now) : l.edits ≠ [] := by
  intro empty
  rw [isDue, (shows.idle_iff.mp empty).2] at due
  cases due

theorem poll_value (shows : s.Shows l) (now : Nat) :
    (s.poll now).value =
      if l.edits ≠ [] ∧ s.isDue now then (l.lowest?, s.reset) else (none, s) := by
  rw [poll_eq]
  by_cases due : s.isDue now
  · have busy := shows.busy_of_isDue due
    rw [if_pos due, if_pos ⟨busy, due⟩, shows.take_value, if_neg busy]
  · rw [if_neg due, if_neg fun fires => due fires.2]
    rfl

/-- A call does to the scheduler what it does to the log. -/
theorem call (shows : s.Shows l) (c : Call) : (s.call c).2.Shows (l.enter (s.answer c)) := by
  cases c with
  | noteEdit line now =>
    constructor
    case delay => exact (s.delay_noteEdit line now).trans shows.delay
    case line =>
      rw [answer, EditLog.lowest?_enter_noteEdit, ← shows.line]
      exact dirtyLine?_noteEdit line now
    case due =>
      rw [answer, EditLog.due?_enter_noteEdit, ← shows.delay]
      exact deadline?_noteEdit line now
  | setDelay delay => exact ⟨rfl, shows.line, shows.due⟩
  | reset => exact ⟨shows.delay, rfl, rfl⟩
  | take =>
    have value : s.call .take = _ := shows.take_value
    by_cases empty : l.edits = []
    · rw [if_pos empty] at value
      rw [answer, value]
      exact ⟨shows.delay, shows.line, shows.due⟩
    · obtain ⟨line, lowest⟩ := EditLog.exists_lowest empty
      rw [if_neg empty, lowest] at value
      rw [answer, value]
      exact ⟨shows.delay, rfl, rfl⟩
  | poll now =>
    have value : s.call (.poll now) = _ := shows.poll_value now
    by_cases fires : l.edits ≠ [] ∧ s.isDue now
    · obtain ⟨line, lowest⟩ := EditLog.exists_lowest fires.1
      rw [if_pos fires, lowest] at value
      rw [answer, value]
      exact ⟨shows.delay, rfl, rfl⟩
    · rw [if_neg fires] at value
      rw [answer, value]
      exact ⟨shows.delay, shows.line, shows.due⟩

/-- When a call gives out a line, it is the lowest of those in the log. -/
theorem lowest_of_fired (shows : s.Shows l) {c : Call} {line : Nat}
    (fired : (s.answer c).fired = some line) : l.lowest? = some line := by
  cases c with
  | take =>
    change s.take.value.1 = some line at fired
    rwa [Scheduler.take_value, shows.line] at fired
  | poll now =>
    change (s.poll now).value.1 = some line at fired
    rw [shows.poll_value] at fired
    split at fired
    · exact fired
    · cases fired
  | _ => cases fired

end Shows

/-! ## Runs -/

def after (s : Scheduler) (cs : List Call) : Scheduler := cs.foldl (fun s c => (s.call c).2) s

def answers (s : Scheduler) : List Call → List Answer
  | [] => []
  | c :: rest => s.answer c :: (s.call c).2.answers rest

variable {s : Scheduler}

theorem after_concat (cs : List Call) (c : Call) : s.after (cs ++ [c]) = ((s.after cs).call c).2 := by
  simp [after]

theorem answers_append (cs more : List Call) :
    s.answers (cs ++ more) = s.answers cs ++ (s.after cs).answers more := by
  induction cs generalizing s with
  | nil => rfl
  | cons c rest ih => exact congrArg (s.answer c :: ·) ih

theorem length_answers (cs : List Call) : (s.answers cs).length = cs.length := by
  induction cs generalizing s with
  | nil => rfl
  | cons c rest ih => simp [answers, ih]

/-- The answers to the calls before a place, and the answer there. -/
theorem answers_at {cs : List Call} {j : Nat} {c : Call} (here : cs[j]? = some c) :
    (s.answers cs).take j = s.answers (cs.take j) ∧
      (s.answers cs)[j]? = some ((s.after (cs.take j)).answer c) := by
  obtain ⟨inside, rfl⟩ := List.getElem?_eq_some_iff.mp here
  have split : s.answers cs = s.answers (cs.take j) ++ (s.after (cs.take j)).answers (cs.drop j) := by
    rw [← answers_append, List.take_append_drop]
  have length : (s.answers (cs.take j)).length = j := by
    rw [length_answers, List.length_take, Nat.min_eq_left (Nat.le_of_lt inside)]
  rw [List.drop_eq_getElem_cons inside, answers] at split
  rw [split]
  constructor
  · exact List.take_left' length
  · rw [List.getElem?_append_right (Nat.le_of_eq length), length, Nat.sub_self]
    rfl

theorem shows_after (delay : Nat) (cs : List Call) :
    ({ delay } : Scheduler).after cs |>.Shows
      (.ofAnswers delay (({ delay } : Scheduler).answers cs)) := by
  induction cs using List.reverseRecOn with
  | nil => exact ⟨rfl, rfl, rfl⟩
  | append_singleton cs c ih =>
    rw [after_concat, answers_append, answers, answers, EditLog.ofAnswers_concat]
    exact ih.call c

/-! ## What becomes of an edit -/

section

variable {delay : Nat} {as : List Answer} {i j line : Nat}

theorem Answer.fired_or_reset {a : Answer} (clears : a.clears = true) :
    (∃ line, a.fired = some line) ∨ a.call = .reset := by
  obtain ⟨call, fired⟩ := a
  cases call with
  | poll now => exact .inl (Option.isSome_iff_exists.mp clears)
  | take => exact .inl (Option.isSome_iff_exists.mp clears)
  | reset => exact .inr rfl
  | _ => cases clears

/-- The edit noted at place `i` is in the log before the call at place `j`. -/
def Waits (delay : Nat) (as : List Answer) (i j : Nat) : Prop :=
  ∃ e ∈ (EditLog.ofAnswers delay (as.take j)).edits, e.place = i

/-- The call at place `j` takes the edit noted at place `i` out of the log. -/
structure Ends (delay : Nat) (as : List Answer) (i j : Nat) : Prop where
  waits : Waits delay as i j
  clears : ∃ a, as[j]? = some a ∧ a.clears = true

/-- What becomes of an edit: one later call gives out its line or a lower one, or one later call
drops it, or it still waits. -/
inductive Fate (delay : Nat) (as : List Answer) (i line : Nat) : Prop
  | fired (j lowest : Nat) (later : i < j) (only : ∀ k, Ends delay as i k ↔ k = j)
      (fires : as[j]?.bind (·.fired) = some lowest) (below : lowest ≤ line)
  | dropped (j : Nat) (later : i < j) (only : ∀ k, Ends delay as i k ↔ k = j)
      (resets : as[j]?.map (·.call) = some .reset)
  | waits (waits : Waits delay as i as.length) (goesOn : ∀ k, ¬ Ends delay as i k)

theorem waits_iff {a : Answer} {now : Nat} (noted : as[i]? = some a)
    (call : a.call = .noteEdit line now) :
    Waits delay as i j ↔ i < j ∧ ∀ k a, i < k → k < j → as[k]? = some a → a.clears = false := by
  constructor
  · rintro ⟨e, present, rfl⟩
    obtain ⟨⟨a', here, -⟩, quiet⟩ := EditLog.mem_edits_iff.mp present
    have before : e.place < j := by
      obtain ⟨inside, -⟩ := List.getElem?_eq_some_iff.mp here
      rw [List.length_take] at inside
      omega
    refine ⟨before, fun k a'' later inside there => quiet k a'' later ?_⟩
    rwa [List.getElem?_take_of_lt inside]
  · rintro ⟨before, quiet⟩
    let e : NotedEdit := ⟨i, line, now, (EditLog.ofAnswers delay ((as.take j).take i)).delay⟩
    refine ⟨e, EditLog.mem_edits_iff.mpr ⟨⟨a, ?_, call, rfl⟩, ?_⟩, rfl⟩
    · rwa [List.getElem?_take_of_lt before]
    · intro k a' later there
      obtain ⟨inside, -⟩ := List.getElem?_eq_some_iff.mp there
      rw [List.length_take] at inside
      have inside : k < j := by omega
      rw [List.getElem?_take_of_lt inside] at there
      exact quiet k a' later inside there

/-- After any place either no call clears the log, or there is a first one that does. -/
theorem quiet_or_first (as : List Answer) (i : Nat) :
    (∀ k a, i < k → as[k]? = some a → a.clears = false) ∨
      ∃ j a, i < j ∧ as[j]? = some a ∧ a.clears = true ∧
        ∀ k a, i < k → k < j → as[k]? = some a → a.clears = false := by
  classical
  by_cases cleared : ∃ j, i < j ∧ ∃ a, as[j]? = some a ∧ a.clears = true
  · obtain ⟨later, a, here, clears⟩ := Nat.find_spec cleared
    refine .inr ⟨_, a, later, here, clears, fun k a' after before there => ?_⟩
    have earliest := Nat.find_min cleared before
    exact Bool.eq_false_iff.mpr fun clears' => earliest ⟨after, a', there, clears'⟩
  · refine .inl fun k a after there => ?_
    exact Bool.eq_false_iff.mpr fun clears => cleared ⟨k, after, a, there, clears⟩

/-- The first call after an edit that clears the log is the one that ends its wait. -/
theorem ends_iff {a : Answer} {now : Nat} (noted : as[i]? = some a)
    (call : a.call = .noteEdit line now) {a' : Answer} (later : i < j) (here : as[j]? = some a')
    (clears : a'.clears = true)
    (first : ∀ k a, i < k → k < j → as[k]? = some a → a.clears = false) (k : Nat) :
    Ends delay as i k ↔ k = j := by
  constructor
  · rintro ⟨waits, a'', there, clears'⟩
    obtain ⟨after, quiet⟩ := (waits_iff noted call).mp waits
    rcases Nat.lt_trichotomy k j with before | same | beyond
    · rw [first k a'' after before there] at clears'
      cases clears'
    · exact same
    · rw [quiet j a' later beyond here] at clears
      cases clears
  · rintro rfl
    exact ⟨(waits_iff noted call).mpr ⟨later, first⟩, a', here, clears⟩

theorem line_eq {a : Answer} {now : Nat} {e : NotedEdit} (noted : as[e.place]? = some a)
    (call : a.call = .noteEdit line now)
    (present : e ∈ (EditLog.ofAnswers delay (as.take j)).edits) : e.line = line := by
  obtain ⟨⟨a', here, call', -⟩, -⟩ := EditLog.mem_edits_iff.mp present
  obtain ⟨inside, -⟩ := List.getElem?_eq_some_iff.mp here
  rw [List.length_take] at inside
  have inside : e.place < j := by omega
  rw [List.getElem?_take_of_lt inside, noted] at here
  cases here
  cases call.symm.trans call'
  rfl

end

/-- A line that is given out is not below those of the edits that wait. -/
theorem fired_le {delay : Nat} {cs : List Call} {i j line now lowest : Nat}
    (noted : cs[i]? = some (.noteEdit line now))
    (waits : Waits delay (({ delay } : Scheduler).answers cs) i j)
    (fires : (({ delay } : Scheduler).answers cs)[j]?.bind (·.fired) = some lowest) :
    lowest ≤ line := by
  obtain ⟨e, present, rfl⟩ := waits
  have same := line_eq (answers_at (s := { delay }) noted).2 rfl present
  obtain ⟨a, here, fired⟩ := Option.bind_eq_some_iff.mp fires
  obtain ⟨inside, -⟩ := List.getElem?_eq_some_iff.mp here
  rw [length_answers] at inside
  obtain ⟨before, known⟩ := answers_at (s := { delay }) (List.getElem?_eq_getElem inside)
  cases known.symm.trans here
  rw [before] at present
  have known := (shows_after delay (cs.take j)).lowest_of_fired fired
  rw [← same]
  exact EditLog.lowest?_le known present

theorem fate_of_noted (delay : Nat) {cs : List Call} {i line now : Nat}
    (noted : cs[i]? = some (.noteEdit line now)) :
    Fate delay (({ delay } : Scheduler).answers cs) i line := by
  have known := (answers_at (s := { delay }) noted).2
  rcases quiet_or_first (({ delay } : Scheduler).answers cs) i with
    quiet | ⟨j, a, later, here, clears, first⟩
  · refine .waits ((waits_iff known rfl).mpr ⟨?_, fun k a after _ => quiet k a after⟩) ?_
    · exact (List.getElem?_eq_some_iff.mp known).1
    · rintro k ⟨waits, a, there, clears⟩
      rw [quiet k a ((waits_iff known rfl).mp waits).1 there] at clears
      cases clears
  · have only (k : Nat) : Ends delay (({ delay } : Scheduler).answers cs) i k ↔ k = j :=
      ends_iff known rfl later here clears first k
    rcases a.fired_or_reset clears with ⟨lowest, fired⟩ | resets
    · have fires : (({ delay } : Scheduler).answers cs)[j]?.bind (·.fired) = some lowest := by
        rw [here]
        exact fired
      exact .fired j lowest later only fires (fired_le noted ((only j).mpr rfl).waits fires)
    · refine .dropped j later only ?_
      rw [here]
      exact congrArg some resets

/-- What a scheduler shows, and what it does when it is called, told by the edits in the log. -/
structure Refines (s : Scheduler) (l : EditLog) : Prop where
  idle : s.dirtyLine? = none ∧ s.deadline? = none ↔ l.edits = []
  line : s.dirtyLine? = (l.edits.map (·.line)).min?
  deadline : s.deadline? = l.edits.getLast?.map fun e => e.now + e.delay
  polled : ∀ now, (s.poll now).value =
    if l.edits ≠ [] ∧ s.deadline?.any (· ≤ now) then (s.dirtyLine?, { delay := s.delay })
    else (none, s)
  taken : s.take.value = if l.edits ≠ [] then (s.dirtyLine?, { delay := s.delay }) else (none, s)
  delayed : ∀ delay, (s.setDelay delay).dirtyLine? = s.dirtyLine? ∧
    (s.setDelay delay).deadline? = s.deadline?

/-- A scheduler refines the log of its calls, and every edit that was noted has its fate. -/
theorem refines_log (delay : Nat) (cs : List Call) :
    let new : Scheduler := { delay }
    (new.after cs).Refines (.ofAnswers delay (new.answers cs)) ∧
      ∀ i line now, cs[i]? = some (.noteEdit line now) → Fate delay (new.answers cs) i line := by
  intro new
  have shows := shows_after delay cs
  refine ⟨?_, fun i line now noted => fate_of_noted delay noted⟩
  constructor
  case idle => exact shows.idle_iff.symm
  case line => exact shows.line
  case deadline => exact shows.due
  case polled =>
    intro now
    rw [shows.poll_value, shows.line]
    rfl
  case taken =>
    rw [shows.take_value, shows.line, ite_not]
    rfl
  case delayed =>
    intro delay'
    exact ⟨rfl, rfl⟩

/-- The clock goes back, and the delay changes while edits wait. -/
theorem refines_log_clock_back :
    let new : Scheduler := { delay := 100 }
    let cs : List Call := [.noteEdit 7 50, .setDelay 0, .noteEdit 9 20, .setDelay 300, .poll 19,
      .poll 20, .noteEdit 4 10, .poll 309, .reset, .noteEdit 1 0]
    cs[2]? = some (.noteEdit 9 20) ∧ (new.answers cs)[5]? = some ⟨.poll 20, some 7⟩ ∧
      (new.after cs).Refines (.ofAnswers 100 (new.answers cs)) ∧
      Fate 100 (new.answers cs) 2 9 := by
  intro new cs
  obtain ⟨refines, fates⟩ := refines_log 100 cs
  exact ⟨rfl, by decide, refines, fates 2 9 20 rfl⟩

end BracketColoring.Scheduler

import BracketColoring.Proofs.Session.Shown

/-!
# Subscribers

A subscriber gets the color map of every pass that is rendered, so what it has painted last is what
the session shows. Only a change of settings breaks this: it takes the colors away at once, and when
its pass fails no map is handed over. `Seen` says what one operation does to a subscriber and to the
colors, and `InStep` what holds after a run of operations.
-/

namespace BracketColoring

/-- An operation that was done, with what came of it and the maps that subscribers got. -/
structure Turn where
  operation : Operation
  outcome : Option PassOutcome
  renders : List (SubscriberId × ColorMap)
deriving DecidableEq, Repr

def Operation.swaps : Operation → Bool
  | .setSettings _ => true
  | _ => false

namespace Turn

def swaps (t : Turn) : Bool := t.operation.swaps

def rendered (t : Turn) : Bool := t.outcome.any PassOutcome.isRendered

/-- The maps that one subscriber got, in order. -/
def handed (id : SubscriberId) (t : Turn) : List ColorMap :=
  (t.renders.filter fun r => r.1 = id).map (·.2)

end Turn

/-- The map that a subscriber got last. -/
def lastHanded (id : SubscriberId) (turns : List Turn) : Option ColorMap :=
  (turns.flatMap (·.handed id)).getLast?

/-- The turns from the last change of settings on; all of them if there was none. -/
def sinceSwap (turns : List Turn) : List Turn :=
  turns.foldl (fun kept t => if t.swaps then [t] else kept ++ [t]) []

section

variable {id : SubscriberId} {turns : List Turn} {t : Turn}

theorem lastHanded_concat :
    lastHanded id (turns ++ [t]) = (lastHanded id [t]).or (lastHanded id turns) := by
  simp [lastHanded, List.getLast?_append]

/-- When a map is handed to everyone, it is the last that each subscriber got. -/
theorem lastHanded_of_everyone {ids : List SubscriberId} {colors : ColorMap} (subscribed : id ∈ ids)
    (everyone : t.renders = ids.map fun id => (id, colors)) :
    lastHanded id [t] = some colors := by
  have handed : t.handed id =
      List.replicate (ids.filter fun other => other = id).length colors := by
    simp [Turn.handed, everyone, List.filter_map, Function.comp_def]
  have nonempty : (ids.filter fun other => other = id).length ≠ 0 := by
    simpa using subscribed
  simp only [lastHanded, List.flatMap_cons, List.flatMap_nil, List.append_nil, handed,
    List.getLast?_replicate, if_neg nonempty]

theorem lastHanded_eq_none (silent : ∀ t ∈ turns, t.renders = []) : lastHanded id turns = none := by
  rw [lastHanded, List.getLast?_eq_none_iff, List.flatMap_eq_nil_iff]
  intro t membership
  rw [Turn.handed, silent t membership]
  rfl

theorem sinceSwap_concat :
    sinceSwap (turns ++ [t]) = if t.swaps then [t] else sinceSwap turns ++ [t] := by
  simp [sinceSwap]

theorem sinceSwap_subset : sinceSwap turns ⊆ turns := by
  induction turns using List.reverseRecOn with
  | nil => exact List.nil_subset _
  | append_singleton turns t ih =>
    rw [sinceSwap_concat]
    by_cases swap : t.swaps
    · simp [swap]
    · simpa [swap] using List.subset_append_of_subset_left [t] ih

end

/-! ## What is handed over -/

theorem renders_handOver (ids : List SubscriberId) (colors : ColorMap) :
    (Traced.send (ids.map fun id => .render id colors)).renders =
      ids.map fun id => (id, colors) := by
  simp [Traced.send, Traced.renders, List.filterMap_map]

namespace Session

variable {τ : Type} {s : Session τ}

theorem colors_prepare {op : Operation} (keeps : op.swaps = false) :
    (s.prepare op).2.colors = s.colors ∧ (s.prepare op).2.settings = s.settings := by
  cases op with
  | edit line text now =>
    simp only [prepare]
    split <;> exact ⟨rfl, rfl⟩
  | setSettings settings => cases keeps
  | _ => exact ⟨rfl, rfl⟩

theorem colors_prepare_of_swaps {op : Operation} (swaps : op.swaps = true) :
    (s.prepare op).2.colors = .forSettings (s.prepare op).2.settings := by
  cases op with
  | setSettings settings => rfl
  | _ => cases swaps

theorem subscribers_prepare {id : SubscriberId} (subscribed : id ∈ s.subscribers) (op : Operation) :
    id ∈ (s.prepare op).2.subscribers := by
  cases op with
  | subscribe other => exact List.mem_append_left _ subscribed
  | edit line text now =>
    simp only [prepare]
    split <;> exact subscribed
  | _ => exact subscribed

variable [Tokenizer τ] {dirty : Nat} {tokenizer : τ}

theorem renders_runPass_error {error : TokenizeError}
    (answer : Tokenizer.tokenize s.tokenizer s.text = (.error error, tokenizer)) :
    (s.runPass dirty).renders = [] := by
  simp [runPass, answer, dropLines, LineCache.invalidate]

/-- A pass that renders hands its map to every subscriber. -/
theorem renders_runPass_ok {root : Token}
    (answer : Tokenizer.tokenize s.tokenizer s.text = (.ok root, tokenizer)) :
    (s.runPass dirty).renders =
      s.subscribers.map fun id => (id, (s.runPass dirty).value.2.colors) := by
  rw [runPass_ok answer]
  simp only [runPass, answer, dropLines, LineCache.invalidate, Traced.renders_bind,
    Traced.renders_pure, Traced.renders_logAll]
  -- As for the value, it makes no difference whether occurrences lie past the end.
  generalize List.length _ = past
  by_cases dropped : 0 < past
  · rw [if_pos dropped]
    simp [renders_handOver, keep]
  · rw [if_neg dropped]
    simp [renders_handOver, keep]

theorem renders_apply (s : Session τ) (op : Operation) :
    (s.apply op).renders =
      (s.prepare op).1.elim [] fun dirty => ((s.prepare op).2.runPass dirty).renders := by
  have fires : ∀ (s : Session τ) (fired : Option Nat × Scheduler), (s.runFired fired).renders =
      fired.1.elim [] fun dirty => ({ s with scheduler := fired.2 }.runPass dirty).renders := by
    rintro s ⟨line, scheduler⟩
    cases line <;> simp [runFired]
  cases op with
  | subscribe id => rfl
  | edit line text now =>
    by_cases immediate : s.scheduler.delay = 0
    · simp [apply, edit, prepare, Scheduler.noteEdit, immediate, flush, Scheduler.renders_take,
        fires]
    · simp [apply, edit, prepare, Scheduler.noteEdit, immediate]
  | poll now => simp [apply, poll, prepare, Scheduler.renders_poll, fires]
  | flush => simp [apply, flush, prepare, Scheduler.renders_take, fires]
  | refresh => simp [apply, refresh, prepare]
  | setSettings settings => simp [apply, setSettings, refresh, prepare]

theorem subscribers_runPass (s : Session τ) (dirty : Nat) :
    (s.runPass dirty).value.2.subscribers = s.subscribers := by
  obtain ⟨_, _, _, frame⟩ := s.runPass_frame dirty
  rw [frame]

theorem subscribers_apply {id : SubscriberId} (subscribed : id ∈ s.subscribers) (op : Operation) :
    id ∈ (s.apply op).value.2.subscribers := by
  have prepared := subscribers_prepare subscribed op
  rw [apply_value]
  cases (s.prepare op).1 with
  | none => exact prepared
  | some dirty =>
    simp only [runPass?, subscribers_runPass]
    exact prepared

/-! ## Turns -/

def turn (s : Session τ) (op : Operation) : Turn :=
  ⟨op, (s.apply op).value.1, (s.apply op).renders⟩

def after (s : Session τ) : List Operation → Session τ
  | [] => s
  | op :: rest => (s.apply op).value.2.after rest

def turns (s : Session τ) : List Operation → List Turn
  | [] => []
  | op :: rest => s.turn op :: (s.apply op).value.2.turns rest

theorem after_append (s : Session τ) (before more : List Operation) :
    s.after (before ++ more) = (s.after before).after more := by
  induction before generalizing s with
  | nil => rfl
  | cons op rest ih => exact ih _

theorem turns_append (s : Session τ) (before more : List Operation) :
    s.turns (before ++ more) = s.turns before ++ (s.after before).turns more := by
  induction before generalizing s with
  | nil => rfl
  | cons op rest ih => exact congrArg (s.turn op :: ·) (ih _)

/-- What an operation does to the colors, and which map a subscriber gets. -/
inductive Seen (id : SubscriberId) (s : Session τ) (op : Operation) : Prop
  | handed (last : lastHanded id [s.turn op] = some (s.apply op).value.2.colors)
  | kept (nothing : lastHanded id [s.turn op] = none) (keeps : (s.turn op).swaps = false)
      (colors : (s.apply op).value.2.colors = s.colors)
      (settings : (s.apply op).value.2.settings = s.settings)
  | cleared (nothing : lastHanded id [s.turn op] = none) (swaps : (s.turn op).swaps = true)
      (failed : (s.turn op).rendered = false)
      (colors : (s.apply op).value.2.colors = .forSettings (s.apply op).value.2.settings)

/-- Either nobody gets a map and the colors stay as they were before the pass, or everybody gets the
new colors. -/
theorem silent_or_everyone (s : Session τ) (op : Operation) :
    (s.apply op).renders = [] ∧ (s.turn op).rendered = false ∧
        (s.apply op).value.2.colors = (s.prepare op).2.colors ∧
        (s.apply op).value.2.settings = (s.prepare op).2.settings ∨
      (s.apply op).renders =
        (s.prepare op).2.subscribers.map fun id => (id, (s.apply op).value.2.colors) := by
  have value := s.apply_value op
  have renders := s.renders_apply op
  cases pass : (s.prepare op).1 with
  | none =>
    rw [pass] at value renders
    simp [turn, Turn.rendered, value, renders, runPass?]
  | some dirty =>
    rw [pass] at value renders
    cases answer : Tokenizer.tokenize (s.prepare op).2.tokenizer (s.prepare op).2.text with
    | mk result tokenizer =>
      cases result with
      | error error =>
        have silent := renders.trans (renders_runPass_error answer)
        rw [runPass?, runPass_error answer] at value
        simp [turn, Turn.rendered, PassOutcome.isRendered, value, silent]
      | ok root =>
        right
        rw [renders, value]
        exact renders_runPass_ok answer

theorem seen {id : SubscriberId} (subscribed : id ∈ s.subscribers) (op : Operation) :
    Seen id s op := by
  rcases s.silent_or_everyone op with ⟨silent, failed, colors, settings⟩ | everyone
  · have nothing : lastHanded id [s.turn op] = none :=
      lastHanded_eq_none (by simpa [turn] using silent)
    cases swaps : op.swaps with
    | false =>
      obtain ⟨sameColors, sameSettings⟩ := colors_prepare (s := s) swaps
      exact .kept nothing swaps (colors.trans sameColors) (settings.trans sameSettings)
    | true =>
      refine .cleared nothing swaps failed ?_
      rw [colors, settings, colors_prepare_of_swaps swaps]
  · exact .handed (lastHanded_of_everyone (subscribers_prepare subscribed op) everyone)

theorem quiet_apply {op : Operation} (quiet : (s.turn op).outcome = none) :
    (s.apply op).value.2.colors = s.colors ∧ (s.apply op).value.2.settings = s.settings ∧
      (s.turn op).renders = [] := by
  have pass : (s.prepare op).1 = none := by
    rw [turn, apply_value] at quiet
    cases pass : (s.prepare op).1 with
    | none => rfl
    | some dirty =>
      rw [pass] at quiet
      cases quiet
  have keeps : op.swaps = false := by
    cases op with
    | setSettings settings => cases pass
    | _ => rfl
  obtain ⟨colors, settings⟩ := colors_prepare (s := s) keeps
  refine ⟨?_, ?_, ?_⟩
  · rw [apply_value, pass]
    exact colors
  · rw [apply_value, pass]
    exact settings
  · rw [turn, renders_apply, pass]
    rfl

/-- While no pass runs, nothing is handed over and the colors stay as they are. -/
theorem quiet_after {ops : List Operation} (quiet : ∀ t ∈ s.turns ops, t.outcome = none) :
    (s.after ops).colors = s.colors ∧ (s.after ops).settings = s.settings ∧
      ∀ t ∈ s.turns ops, t.renders = [] := by
  induction ops generalizing s with
  | nil => simp [after, turns]
  | cons op rest ih =>
    obtain ⟨colors, settings, here⟩ := quiet_apply (quiet _ List.mem_cons_self)
    obtain ⟨colors', settings', later⟩ :=
      ih fun t membership => quiet t (List.mem_cons_of_mem _ membership)
    refine ⟨colors'.trans colors, settings'.trans settings, ?_⟩
    intro t membership
    rcases List.mem_cons.mp membership with rfl | inRest
    · exact here
    · exact later t inRest

/-- What a subscriber has got is in step with the colors: it has those since the last change of
settings, and if every change of settings was rendered, those of the whole run. -/
structure InStep (id : SubscriberId) (initial : Settings) (turns : List Turn) (s : Session τ) :
    Prop where
  subscribed : id ∈ s.subscribers
  recent : s.colors = (lastHanded id (sinceSwap turns)).getD (.forSettings s.settings)
  whole : (∀ t ∈ turns, t.swaps = true → t.rendered = true) →
    s.colors = (lastHanded id turns).getD (.forSettings initial)

namespace InStep

variable {id : SubscriberId} {initial : Settings} {turns : List Turn}

theorem apply (inStep : s.InStep id initial turns) (op : Operation) :
    (s.apply op).value.2.InStep id initial (turns ++ [s.turn op]) := by
  refine ⟨subscribers_apply inStep.subscribed op, ?_, ?_⟩
  · rw [sinceSwap_concat]
    cases seen inStep.subscribed op with
    | handed last =>
      split
      · rw [last, Option.getD_some]
      · rw [lastHanded_concat, last, Option.some_or, Option.getD_some]
    | kept nothing keeps colors settings =>
      rw [keeps, if_neg Bool.false_ne_true, lastHanded_concat, nothing, Option.none_or, colors,
        settings]
      exact inStep.recent
    | cleared nothing swaps failed colors =>
      rw [swaps, if_pos rfl, nothing, Option.getD_none, colors]
  · intro rendered
    rw [lastHanded_concat]
    have before := inStep.whole fun t membership => rendered t (List.mem_append_left _ membership)
    cases seen inStep.subscribed op with
    | handed last => rw [last, Option.some_or, Option.getD_some]
    | kept nothing keeps colors settings =>
      rw [nothing, Option.none_or, colors]
      exact before
    | cleared nothing swaps failed colors =>
      -- This is the one way out of step, and it is excluded.
      have here := rendered (s.turn op) (by simp) swaps
      rw [failed] at here
      cases here

theorem after (inStep : s.InStep id initial turns) (ops : List Operation) :
    (s.after ops).InStep id initial (turns ++ s.turns ops) := by
  induction ops generalizing s turns with
  | nil => simpa [Session.turns, Session.after] using inStep
  | cons op rest ih =>
    have later := ih (inStep.apply op)
    rwa [List.append_assoc] at later

omit [Tokenizer τ] in
theorem start (silent : ∀ t ∈ turns, t.renders = []) (colors : s.colors = .forSettings s.settings)
    (same : s.settings = initial) (id : SubscriberId) :
    (s.subscribe id).InStep id initial turns where
  subscribed := List.mem_append_right _ List.mem_cons_self
  recent := by
    rw [lastHanded_eq_none fun t kept => silent t (sinceSwap_subset kept)]
    exact colors
  whole _ := by
    rw [lastHanded_eq_none silent, ← same]
    exact colors

end InStep

/-- For a subscriber from before the first pass: the colors of the session are those that the
subscriber got last since the settings changed, and paint nothing if there were none. When the pass
after every change of settings was rendered, they are those that the subscriber got last at all. -/
theorem colors_eq_lastHanded (settings : Settings) (tokenizer : τ) (text : String)
    (id : SubscriberId) {before : List Operation} (more : List Operation)
    (quiet : ∀ t ∈ (create settings tokenizer text).turns before, t.outcome = none) :
    let start := create settings tokenizer text
    let ops := before ++ .subscribe id :: more
    (start.after ops).colors = (lastHanded id (sinceSwap (start.turns ops))).getD
        (.forSettings (start.after ops).settings) ∧
      ((∀ t ∈ start.turns ops, t.swaps = true → t.rendered = true) →
        (start.after ops).colors =
          (lastHanded id (start.turns ops)).getD (.forSettings settings)) := by
  intro start ops
  obtain ⟨colors, same, silent⟩ := quiet_after quiet
  have first : ∀ t ∈ start.turns before ++ [(start.after before).turn (.subscribe id)],
      t.renders = [] := by
    intro t membership
    rcases List.mem_append.mp membership with early | here
    · exact silent t early
    · rw [List.mem_singleton.mp here]
      rfl
  have shown : (start.after before).colors = .forSettings (start.after before).settings := by
    rw [colors, same]
    rfl
  have inStep := (InStep.start first shown same id).after more
  rw [List.append_assoc] at inStep
  simp only [ops, after_append, turns_append]
  exact ⟨inStep.recent, inStep.whole⟩

theorem colors_eq_lastHanded_after_failure :
    let start := create .classic (⟨[false, true]⟩ : Scripted bare) "()"
    let ops := [.edit 0 "(" 0, .subscribe 0, .flush, .refresh, .setSettings .round]
    (start.after ops).colors = (lastHanded 0 (sinceSwap (start.turns ops))).getD
        (.forSettings (start.after ops).settings) ∧
      (start.after ops).colors = (lastHanded 0 (start.turns ops)).getD (.forSettings .classic) := by
  have quiet : ∀ t ∈ (create .classic (⟨[false, true]⟩ : Scripted bare) "()").turns [.edit 0 "(" 0],
      t.outcome = none := by
    decide +kernel
  obtain ⟨recent, whole⟩ := colors_eq_lastHanded .classic (⟨[false, true]⟩ : Scripted bare) "()" 0
    [.flush, .refresh, .setSettings .round] quiet
  refine ⟨recent, whole ?_⟩
  decide +kernel

/-- When the pass after a change of settings fails, the session takes away colors that a subscriber
still has. -/
theorem colors_ne_lastHanded_of_failed_swap :
    let start := create .classic (⟨[false, true]⟩ : Scripted bare) "()"
    let ops := [.subscribe 0, .refresh, .setSettings .round]
    Settings.round.Valid ∧ (start.after ops).colors = .forSettings .round ∧
      (start.after ops).colors ≠ (lastHanded 0 (start.turns ops)).getD (.forSettings .classic) := by
  refine ⟨Settings.valid_round, ?_⟩
  decide +kernel

end Session

end BracketColoring

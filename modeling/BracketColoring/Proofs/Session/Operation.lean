import BracketColoring.Proofs.Scheduler.Pending
import BracketColoring.Session

/-!
# Operations on a session

Whatever a host does with a session has two parts: first text, settings and scheduler change, and
then a pass may run from some line. `prepare` is the first part with the line of the pass;
`apply_value` says that this is all there is, so a property of sessions is looked at twice, once for
`prepare` and once for a pass. `runPass_error` and `runPass_ok` say what a pass does.
-/

namespace BracketColoring

inductive Operation where
  | subscribe (id : SubscriberId)
  | edit (line : Nat) (text : String) (now : Nat)
  | poll (now : Nat)
  | flush
  | refresh
  | setSettings (settings : Settings)
deriving DecidableEq, Repr

def PassOutcome.isRendered : PassOutcome → Bool
  | .rendered .. => true
  | .failed .. => false

/-- A tokenizer that knows the tree of every text, and is out of order at some of its calls. -/
structure Scripted (tree : String → Token) where
  failures : List Bool

instance (tree : String → Token) : Tokenizer (Scripted tree) where
  tokenize t text :=
    (if t.failures.headD false then .error (.failed "out of order") else .ok (tree text),
      ⟨t.failures.tail⟩)

theorem Scripted.tokenize_of_usable {tree : String → Token} {t : Scripted tree}
    (usable : t.failures = []) (text : String) :
    Tokenizer.tokenize t text = (.ok (tree text), ⟨[]⟩) := by
  simp [Tokenizer.tokenize, usable]

/-- A whole text as one punctuation token. -/
def bare (text : String) : Token := .node .punctuation (.text text)

theorem events_handOver (ids : List SubscriberId) (colors : ColorMap) :
    (Traced.send (ids.map fun id => .render id colors)).events = [] := by
  simp [Traced.send, Traced.events]

namespace Session

variable {τ : Type}

/-- What an operation changes before its pass, and the line that the pass starts from. -/
def prepare (s : Session τ) : Operation → Option Nat × Session τ
  | .subscribe id => (none, s.subscribe id)
  | .edit line text now =>
    let noted := (s.scheduler.noteEdit line now).value.2
    if s.scheduler.delay = 0 then
      (noted.take.value.1, { s with text, scheduler := noted.take.value.2 })
    else (none, { s with text, scheduler := noted })
  | .poll now =>
    let fired := (s.scheduler.poll now).value
    (fired.1, { s with scheduler := fired.2 })
  | .flush =>
    let fired := s.scheduler.take.value
    (fired.1, { s with scheduler := fired.2 })
  | .refresh => (some 0, { s with scheduler := s.scheduler.reset })
  | .setSettings settings =>
    (some 0,
      { s with
        settings
        cache := .forSettings settings
        scheduler := (s.scheduler.setDelay settings.debounce).reset
        colors := .forSettings settings
        pairs := .empty })

theorem tokenizer_prepare (s : Session τ) (op : Operation) :
    (s.prepare op).2.tokenizer = s.tokenizer := by
  cases op with
  | edit line text now =>
    simp only [prepare]
    split <;> rfl
  | _ => rfl

/-- The line that the pass of an operation starts from, when the operation runs one. -/
def firedLine? (s : Session τ) : Operation → Option Nat
  | .subscribe _ => none
  | .edit line _ _ => some (s.scheduler.dirtyLine?.elim line (min · line))
  | .poll _ | .flush => s.scheduler.dirtyLine?
  | .refresh | .setSettings _ => some 0

theorem firedLine?_of_pass {s : Session τ} {op : Operation} {dirty : Nat}
    (pass : (s.prepare op).1 = some dirty) : s.firedLine? op = some dirty := by
  cases op with
  | subscribe id => cases pass
  | edit line text now =>
    by_cases immediate : s.scheduler.delay = 0
    · simp only [prepare, if_pos immediate] at pass
      rwa [Scheduler.take_value, Scheduler.dirtyLine?_noteEdit] at pass
    · simp only [prepare, if_neg immediate] at pass
      cases pass
  | poll now =>
    simp only [prepare] at pass
    rcases s.scheduler.poll_value now with fired | waits
    · rwa [fired] at pass
    · rw [waits] at pass
      cases pass
  | flush =>
    simp only [prepare] at pass
    rwa [Scheduler.take_value] at pass
  | refresh => exact pass
  | setSettings settings => exact pass

/-- The lines that the pass of an operation finds; new settings leave none. -/
def foundCache (s : Session τ) : Operation → LineCache
  | .setSettings settings => .forSettings settings
  | _ => s.cache

theorem cache_prepare (s : Session τ) (op : Operation) :
    (s.prepare op).2.cache = s.foundCache op := by
  cases op with
  | edit line text now =>
    simp only [prepare]
    split <;> rfl
  | _ => rfl

theorem size_foundCache_le (s : Session τ) (op : Operation) :
    (s.foundCache op).size ≤ s.cache.size := by
  cases op with
  | setSettings settings => exact Nat.zero_le _
  | _ => exact Nat.le_refl _

/-- The lines that a pass from a line keeps. -/
def keep (s : Session τ) (dirty : Nat) : LineCache :=
  (s.cache.truncate dirty).truncate s.lineCount

@[simp] theorem value_dropLines (s : Session τ) (dirty : Nat) :
    (s.dropLines dirty).value = s.keep dirty := rfl

theorem events_dropLines (s : Session τ) (dirty : Nat) : (s.dropLines dirty).events =
    s.cache.dropEvents dirty ++ (s.cache.truncate dirty).dropEvents s.lineCount := by
  simp [dropLines, LineCache.invalidate]

/-- The number of occurrences past the end of the text that a pass comes across. -/
def countPastEnd (s : Session τ) (dirty : Nat) (os : List Occurrence) : Nat :=
  (os.filter fun o =>
    decide ((s.keep dirty).size ≤ o.line) && decide (s.lineCount ≤ o.line)).length

section

variable [Tokenizer τ]

def apply (s : Session τ) : Operation → Traced (Option PassOutcome × Session τ)
  | .subscribe id => return (none, s.subscribe id)
  | .edit line text now => s.edit line text now
  | .poll now => s.poll now
  | .flush => s.flush
  | .refresh => do
    let (outcome, s) ← s.refresh
    return (some outcome, s)
  | .setSettings settings => do
    let (outcome, s) ← s.setSettings settings
    return (some outcome, s)

/-- Runs a pass from a line, if there is one. -/
def runPass? (s : Session τ) : Option Nat → Option PassOutcome × Session τ
  | none => (none, s)
  | some dirty => (some (s.runPass dirty).value.1, (s.runPass dirty).value.2)

theorem runFired_value (s : Session τ) (fired : Option Nat × Scheduler) :
    (s.runFired fired).value = { s with scheduler := fired.2 }.runPass? fired.1 := by
  obtain ⟨line, scheduler⟩ := fired
  cases line <;> rfl

/-- An operation is what it prepares, and then a pass. -/
theorem apply_value (s : Session τ) (op : Operation) :
    (s.apply op).value = (s.prepare op).2.runPass? (s.prepare op).1 := by
  cases op with
  | subscribe id => rfl
  | edit line text now =>
    by_cases immediate : s.scheduler.delay = 0
    · simp [apply, edit, prepare, Scheduler.noteEdit, immediate, flush, runFired_value]
    · simp [apply, edit, prepare, Scheduler.noteEdit, immediate, runPass?]
  | poll now => simp [apply, poll, prepare, runFired_value]
  | flush => simp [apply, flush, prepare, runFired_value]
  | refresh => rfl
  | setSettings settings => rfl

/-- The sessions that come from a session by operations, each of them allowed where it is done. -/
inductive Reaches (allowed : Session τ → Operation → Prop) (start : Session τ) : Session τ → Prop
  | start : Reaches allowed start start
  | step {s : Session τ} (op : Operation) :
      Reaches allowed start s → allowed s op → Reaches allowed start (s.apply op).value.2

/-! ## What a pass does -/

variable {s : Session τ} {dirty : Nat} {tokenizer : τ}

theorem runPass_error {error : TokenizeError}
    (answer : Tokenizer.tokenize s.tokenizer s.text = (.error error, tokenizer)) :
    (s.runPass dirty).value =
      (.failed error (.forSettings s.settings), { s with tokenizer, cache := s.keep dirty }) := by
  simp [runPass, answer]

theorem runPass_ok {root : Token}
    (answer : Tokenizer.tokenize s.tokenizer s.text = (.ok root, tokenizer)) :
    (s.runPass dirty).value =
      let cache := rebuild s.settings (s.keep dirty)
        (root.occurrences s.settings.literals).occurrences s.lineCount
      (.rendered (cache.colorMap s.settings) (s.keep dirty).size,
        { s with
          tokenizer
          cache
          colors := cache.colorMap s.settings
          pairs := cache.pairIndex s.settings }) := by
  simp only [runPass, Traced.value_bind, answer]
  -- Whether occurrences lie past the end changes what is logged, not the value.
  generalize List.length _ = past
  by_cases dropped : 0 < past
  · rw [if_pos dropped]
    rfl
  · rw [if_neg dropped]
    rfl

/-- What a pass that renders writes to the log. -/
theorem events_runPass_ok {root : Token}
    (answer : Tokenizer.tokenize s.tokenizer s.text = (.ok root, tokenizer)) :
    (s.runPass dirty).events =
      let past := s.countPastEnd dirty (root.occurrences s.settings.literals).occurrences
      let shown := (s.runPass dirty).value.2
      s.cache.dropEvents dirty ++ (s.cache.truncate dirty).dropEvents s.lineCount ++
        (if 0 < past then [.occurrencesPastEnd past s.lineCount] else []) ++
        [.passRendered dirty (s.keep dirty).size s.lineCount shown.colors.rangeCount
          shown.pairs.size] := by
  rw [runPass_ok answer]
  simp only [runPass, answer, Traced.events_bind, events_dropLines]
  rw [value_dropLines]
  unfold countPastEnd
  generalize List.length _ = past
  by_cases dropped : 0 < past
  · rw [if_pos dropped, if_pos dropped]
    simp [events_handOver]
  · rw [if_neg dropped, if_neg dropped]
    simp [events_handOver]

theorem apply_refresh_error {error : TokenizeError}
    (answer : Tokenizer.tokenize s.tokenizer s.text = (.error error, tokenizer)) :
    (s.apply .refresh).value =
      (some (.failed error (.forSettings s.settings)),
        { s with tokenizer, cache := s.keep 0, scheduler := s.scheduler.reset }) := by
  rw [apply_value]
  exact congrArg (fun pass => (some pass.1, pass.2))
    (runPass_error (s := (s.prepare .refresh).2) answer)

theorem apply_refresh_ok {root : Token}
    (answer : Tokenizer.tokenize s.tokenizer s.text = (.ok root, tokenizer)) :
    (s.apply .refresh).value =
      let cache := rebuild s.settings (s.keep 0)
        (root.occurrences s.settings.literals).occurrences s.lineCount
      (some (.rendered (cache.colorMap s.settings) (s.keep 0).size),
        { s with
          tokenizer
          cache
          scheduler := s.scheduler.reset
          colors := cache.colorMap s.settings
          pairs := cache.pairIndex s.settings }) := by
  rw [apply_value]
  exact congrArg (fun pass => (some pass.1, pass.2))
    (runPass_ok (s := (s.prepare .refresh).2) answer)

/-- A pass uses the tokenizer, and changes nothing else but what it computes. -/
theorem runPass_frame (s : Session τ) (dirty : Nat) : ∃ cache colors pairs,
    (s.runPass dirty).value.2 =
      { s with
        tokenizer := (Tokenizer.tokenize s.tokenizer s.text).2
        cache, colors, pairs } := by
  cases answer : Tokenizer.tokenize s.tokenizer s.text with
  | mk result tokenizer =>
    cases result with
    | error error => exact ⟨_, _, _, congrArg Prod.snd (runPass_error answer)⟩
    | ok root => exact ⟨_, _, _, congrArg Prod.snd (runPass_ok answer)⟩

theorem tokenizer_runPass (s : Session τ) (d : Nat) :
    (s.runPass d).value.2.tokenizer = (Tokenizer.tokenize s.tokenizer s.text).2 := by
  obtain ⟨_, _, _, frame⟩ := s.runPass_frame d
  rw [frame]

theorem settings_runPass (s : Session τ) (d : Nat) :
    (s.runPass d).value.2.settings = s.settings := by
  obtain ⟨_, _, _, frame⟩ := s.runPass_frame d
  rw [frame]

theorem scheduler_runPass (s : Session τ) (d : Nat) :
    (s.runPass d).value.2.scheduler = s.scheduler := by
  obtain ⟨_, _, _, frame⟩ := s.runPass_frame d
  rw [frame]

theorem tokens_of_rendered {colors : ColorMap} {line : Nat} {s' : Session τ}
    (rendered : (s.runPass dirty).value = (.rendered colors line, s')) :
    ∃ root tokenizer, Tokenizer.tokenize s.tokenizer s.text = (.ok root, tokenizer) := by
  cases answer : Tokenizer.tokenize s.tokenizer s.text with
  | mk result tokenizer =>
    cases result with
    | ok root => exact ⟨root, tokenizer, rfl⟩
    | error error =>
      rw [runPass_error answer] at rendered
      cases rendered

theorem error_of_failed {error : TokenizeError} {colors : ColorMap} {s' : Session τ}
    (failed : (s.runPass dirty).value = (.failed error colors, s')) :
    ∃ tokenizer, Tokenizer.tokenize s.tokenizer s.text = (.error error, tokenizer) := by
  cases answer : Tokenizer.tokenize s.tokenizer s.text with
  | mk result tokenizer =>
    cases result with
    | ok root =>
      rw [runPass_ok answer] at failed
      cases failed
    | error error =>
      rw [runPass_error answer] at failed
      cases failed
      exact ⟨tokenizer, rfl⟩

theorem rendered_of_tokens {op : Operation} {root : Token} (pass : (s.prepare op).1 = some dirty)
    (answer : Tokenizer.tokenize (s.prepare op).2.tokenizer (s.prepare op).2.text =
      (.ok root, tokenizer)) :
    ∃ colors line, (s.apply op).value = (some (.rendered colors line), (s.apply op).value.2) := by
  have ran := s.apply_value op
  rw [pass, runPass?, runPass_ok answer] at ran
  rw [ran]
  exact ⟨_, _, rfl⟩

theorem failed_of_error {op : Operation} {error : TokenizeError}
    (pass : (s.prepare op).1 = some dirty)
    (answer : Tokenizer.tokenize (s.prepare op).2.tokenizer (s.prepare op).2.text =
      (.error error, tokenizer)) :
    ∃ colors, (s.apply op).value = (some (.failed error colors), (s.apply op).value.2) := by
  have ran := s.apply_value op
  rw [pass, runPass?, runPass_error answer] at ran
  rw [ran]
  exact ⟨_, rfl⟩

theorem pass_of_outcome {op : Operation} {outcome : PassOutcome} {s' : Session τ}
    (ran : (s.apply op).value = (some outcome, s')) :
    ∃ dirty, (s.prepare op).1 = some dirty ∧
      ((s.prepare op).2.runPass dirty).value = (outcome, s') := by
  rw [apply_value] at ran
  cases pass : (s.prepare op).1 with
  | none =>
    rw [pass] at ran
    cases ran
  | some dirty =>
    rw [pass] at ran
    obtain ⟨outcome, session⟩ := Prod.mk.inj ran
    exact ⟨dirty, rfl, Prod.ext (Option.some.inj outcome) session⟩

end

end Session

end BracketColoring

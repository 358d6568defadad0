import BracketColoring.Proofs.Session.Subscribers

/-!
# Passes that fail

A pass drops lines before it asks for tokens. When the tokenizer fails, nothing else of the pass
remains: what the session shows, its settings and its subscribers are as before, and no work waits.
No operation adds lines but a pass that is rendered (`size_after_le`); so the next pass of that kind
starts where lines were dropped, or above, whatever line it is run for.
-/

namespace BracketColoring

namespace ColorMap

/-- The map has the colors of the settings, and none of them paints anything. -/
structure PaintsNothing (m : ColorMap) (s : Settings) : Prop where
  colors : m.colors = s.colors
  empty : ∀ e ∈ m.entries, e.2 = []

theorem paintsNothing_forSettings (s : Settings) : (forSettings s).PaintsNothing s where
  colors := by
    have kept : Ordered.distinct (s.colors ++ []) = s.colors :=
      Ordered.distinct_append_of_subset s.pairwise_colors (by simp)
    rw [List.append_nil] at kept
    simpa [forSettings, blank, ColorMap.colors, Function.comp_def] using kept
  empty e entry := by
    obtain ⟨c, -, rfl⟩ := List.mem_map.mp entry
    rfl

end ColorMap

def Operation.newText? : Operation → Option String
  | .edit _ text _ => some text
  | _ => none

namespace Session

variable {τ : Type} {s : Session τ}

/-- Before a pass only the text and what waits change, unless there are new settings. -/
theorem prepare_of_pass {op : Operation} (keeps : op.swaps = false) {dirty : Nat}
    (pass : (s.prepare op).1 = some dirty) :
    (s.prepare op).2 =
      { s with text := op.newText?.getD s.text, scheduler := s.scheduler.reset } := by
  cases op with
  | subscribe id => cases pass
  | edit line text now =>
    by_cases immediate : s.scheduler.delay = 0
    · simp only [prepare, if_pos immediate, Scheduler.take_value, Scheduler.reset_noteEdit]
      rfl
    · simp only [prepare, if_neg immediate] at pass
      cases pass
  | poll now =>
    simp only [prepare] at pass ⊢
    rcases s.scheduler.poll_value now with fired | waits
    · rw [fired]
      rfl
    · rw [waits] at pass
      cases pass
  | flush =>
    simp only [prepare, Scheduler.take_value]
    rfl
  | refresh => rfl
  | setSettings settings => cases keeps

/-- A session after an operation whose pass from a line has failed. -/
structure LeftByFailure (s : Session τ) (op : Operation) (dirty : Nat) (s' : Session τ) : Prop where
  text : s'.text = op.newText?.getD s.text
  settings : s'.settings = s.settings
  colors : s'.colors = s.colors
  pairs : s'.pairs = s.pairs
  subscribers : s'.subscribers = s.subscribers
  idle : s'.scheduler.dirtyLine? = none ∧ s'.scheduler.deadline? = none
  start : s'.cache.start = s.cache.start
  lines : s'.cache.lines = s.cache.lines.take s'.cache.size
  size : s'.cache.size = min s.cache.size (min dirty s'.lineCount)

/-! ## The lines that a pass keeps -/

theorem size_keep (s : Session τ) (dirty : Nat) :
    (s.keep dirty).size = min s.cache.size (min dirty s.lineCount) := by
  simp only [keep, LineCache.truncate, LineCache.size, List.length_take]
  omega

theorem lines_keep (s : Session τ) (dirty : Nat) :
    (s.keep dirty).lines = s.cache.lines.take (s.keep dirty).size := by
  have prefixed : (s.keep dirty).lines <+: s.cache.lines :=
    (List.take_prefix _ _).trans (List.take_prefix _ _)
  exact List.prefix_iff_eq_take.mp prefixed

theorem size_keep_prepare_le (s : Session τ) (op : Operation) (dirty : Nat) :
    ((s.prepare op).2.keep dirty).size ≤ s.cache.size := by
  have found := s.size_foundCache_le op
  rw [size_keep, cache_prepare]
  omega

variable [Tokenizer τ]

theorem size_apply_le {op : Operation} (quiet : (s.turn op).rendered = false) :
    (s.apply op).value.2.cache.size ≤ s.cache.size := by
  rw [turn] at quiet
  rw [apply_value] at quiet ⊢
  cases pass : (s.prepare op).1 with
  | none =>
    rw [runPass?, cache_prepare]
    exact s.size_foundCache_le op
  | some dirty =>
    rw [pass, runPass?] at quiet
    cases answer : Tokenizer.tokenize (s.prepare op).2.tokenizer (s.prepare op).2.text with
    | mk result tokenizer =>
      cases result with
      | error error =>
        rw [runPass?, runPass_error answer]
        exact s.size_keep_prepare_le op dirty
      | ok root =>
        rw [runPass_ok answer] at quiet
        cases quiet

/-- While no pass is rendered, no lines are added. -/
theorem size_after_le {ops : List Operation} (quiet : ∀ t ∈ s.turns ops, t.rendered = false) :
    (s.after ops).cache.size ≤ s.cache.size := by
  induction ops generalizing s with
  | nil => exact Nat.le_refl _
  | cons op rest ih =>
    have here := size_apply_le (quiet _ List.mem_cons_self)
    have later := ih fun t membership => quiet t (List.mem_cons_of_mem _ membership)
    exact later.trans here

theorem rebuiltFrom_le {op : Operation} {colors : ColorMap} {line : Nat} {s' : Session τ}
    (rendered : (s.apply op).value = (some (.rendered colors line), s')) :
    line ≤ s.cache.size := by
  obtain ⟨dirty, -, result⟩ := pass_of_outcome rendered
  obtain ⟨root, tokenizer, answer⟩ := tokens_of_rendered result
  rw [runPass_ok answer] at result
  cases result
  exact s.size_keep_prepare_le op dirty

/-- An operation whose pass fails changes nothing that the session shows and tells nobody; it drops
the lines from the line of its pass on, and these are built again by the next pass that is
rendered. -/
theorem failed_keeps_results {op : Operation} (keeps : op.swaps = false) {error : TokenizeError}
    {colors : ColorMap} {s' : Session τ}
    (failed : (s.apply op).value = (some (.failed error colors), s')) :
    (∃ dirty, s.firedLine? op = some dirty ∧ s.LeftByFailure op dirty s') ∧
      (s.apply op).renders = [] ∧ colors.PaintsNothing s.settings ∧
      ∀ more, (∀ t ∈ s'.turns more, t.rendered = false) →
        ∀ next colors' line s'',
          ((s'.after more).apply next).value = (some (.rendered colors' line), s'') →
            line ≤ s'.cache.size := by
  obtain ⟨dirty, pass, result⟩ := pass_of_outcome failed
  obtain ⟨tokenizer, answer⟩ := error_of_failed result
  have prepared := prepare_of_pass keeps pass
  have silent : (s.apply op).renders = [] := by
    rw [renders_apply, pass]
    exact renders_runPass_error answer
  rw [runPass_error answer, prepared] at result
  cases result
  refine ⟨⟨dirty, firedLine?_of_pass pass, ?_⟩, silent,
    ColorMap.paintsNothing_forSettings s.settings, ?_⟩
  · constructor
    case lines => exact lines_keep _ dirty
    case size => exact size_keep _ dirty
    case idle => exact ⟨rfl, rfl⟩
    all_goals rfl
  · intro more quiet next colors' line s'' rendered
    exact (rebuiltFrom_le rendered).trans (size_after_le quiet)

/-- Two passes fail, the second on a lower line than the first. -/
theorem failed_keeps_results_twice :
    let shown := (create .classic (⟨[false, true, true]⟩ : Scripted bare) "(\n[\n)").after
      [.subscribe 0, .refresh, .edit 1 "(\n[\n])" 0]
    let failed := (shown.apply .flush).value.2
    let again := failed.after [.edit 2 "(\n[\n))" 5, .flush, .edit 2 "(\n[\n)]" 6]
    shown.cache.size = 3 ∧ shown.pairs.size = 0 ∧ shown.LeftByFailure .flush 1 failed ∧
      failed.cache.size = 1 ∧
      ∃ colors line s', (again.apply .flush).value = (some (.rendered colors line), s') ∧
        line ≤ 1 := by
  intro shown failed again
  obtain ⟨broken, pass⟩ : (shown.prepare .flush).2.tokenizer.failures = [true, true] ∧
      (shown.prepare .flush).1 = some 1 := by decide +kernel
  have answer : Tokenizer.tokenize (shown.prepare .flush).2.tokenizer
      (shown.prepare .flush).2.text = (.error (.failed "out of order"), ⟨[true]⟩) := by
    simp [Tokenizer.tokenize, broken]
  obtain ⟨colors, ran⟩ := failed_of_error pass answer
  obtain ⟨⟨dirty, fired, left⟩, -, -, next⟩ := failed_keeps_results rfl ran
  rw [firedLine?_of_pass pass] at fired
  cases fired
  obtain ⟨mended, pass'⟩ : (again.prepare .flush).2.tokenizer.failures = [] ∧
      (again.prepare .flush).1 = some 2 := by decide +kernel
  obtain ⟨colors', line, rendered⟩ :=
    rendered_of_tokens pass' (Scripted.tokenize_of_usable mended _)
  obtain ⟨lines, pairs, size⟩ : shown.cache.size = 3 ∧ shown.pairs.size = 0 ∧
      failed.cache.size = 1 := by decide +kernel
  refine ⟨lines, pairs, left, size, _, _, _, rendered, ?_⟩
  rw [← size]
  exact next _ (by decide +kernel) _ _ _ _ rendered

end Session

end BracketColoring

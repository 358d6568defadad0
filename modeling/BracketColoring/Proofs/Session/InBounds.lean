import BracketColoring.Proofs.LineCache.Guarded
import BracketColoring.Proofs.Occurrence.Placed
import BracketColoring.Proofs.Occurrence.Slices
import BracketColoring.Proofs.Session.Operation

/-!
# Sessions without failing lookups

`Session.guardedApply` is an operation in which every lookup, every cut and every remainder can fail.
From settings that were accepted no run gets there: in every state the session is `InBounds`, and an
operation gives what `Session.apply` gives (`lookups_succeed`).
-/

namespace BracketColoring

namespace Session

variable {τ : Type}

/-- Rebuilds the lines and looks up the last one, of which there must be one. -/
def guardedRebuild (s : Settings) (kept : LineCache) (os : List Occurrence) (lines : Nat) :
    Option LineCache := do
  let rebuilt := os.filter fun o => decide (kept.size ≤ o.line) && decide (o.line < lines)
  let c ← kept.guardedProcessAll s rebuilt
  if lines = 0 then none
  else
    let c := c.extend lines
    let _ ← c.lines[lines - 1]?
    return c

theorem guardedRebuild_eq {s : Settings} {kept : LineCache} (shaped : kept.Shaped s)
    {os : List Occurrence} (known : ∀ o ∈ os, s.Knows o.pair) {lines : Nat} (counted : 1 ≤ lines) :
    guardedRebuild s kept os lines = some (rebuild s kept os lines) := by
  have processed : ∀ p : Occurrence → Bool, kept.guardedProcessAll s (os.filter p) =
      some (kept.processAll s (os.filter p)) := fun p =>
    LineCache.guardedProcessAll_eq shaped fun o membership =>
      known o (List.mem_filter.mp membership).1
  have inside : ∀ c : LineCache, lines - 1 < (c.extend lines).lines.length := by
    intro c
    have sized := c.size_extend lines
    rw [LineCache.size] at sized
    omega
  unfold guardedRebuild rebuild
  simp only [processed, Option.bind_eq_bind, Option.bind_some, if_neg (Nat.ne_of_gt counted),
    List.getElem?_eq_getElem (inside _)]
  rfl

theorem shaped_rebuild {s : Settings} {kept : LineCache} (shaped : kept.Shaped s)
    {os : List Occurrence} (known : ∀ o ∈ os, s.Knows o.pair) (lines : Nat) :
    (rebuild s kept os lines).Shaped s :=
  (shaped.processAll fun o membership => known o (List.mem_filter.mp membership).1).extend lines

/-- What keeps the lookups of a session from failing. -/
structure InBounds (s : Session τ) : Prop where
  palettes : ∀ d ∈ s.settings.pairs, d.palette.toList ≠ []
  counted : 1 ≤ s.lineCount
  mapped : ∀ root : Token, ∀ o ∈ (root.occurrences s.settings.literals).occurrences,
    s.settings.Knows o.pair
  cut : ∀ root : Token, root.guardedOccurrences s.settings.literals =
    some (root.occurrences s.settings.literals)
  cached : s.cache.Shaped s.settings

/-- New settings are accepted ones. -/
def TakesAccepted (_ : Session τ) : Operation → Prop
  | .setSettings settings => settings.Accepted
  | _ => True

theorem InBounds.of_valid {s : Session τ} (valid : s.settings.Valid)
    (cached : s.cache.Shaped s.settings) : s.InBounds where
  palettes := fun _ _ => List.cons_ne_nil _ _
  counted := Nat.succ_pos _
  mapped := fun _ _ membership => valid.knows_of_occurrence membership
  cut := fun root => root.guardedOccurrences_eq valid.literals_nonEmpty (Literals.distinct_ofPairs _)
  cached := cached

/-- The settings have passed the checks, and the lines have the shape that the settings ask for. -/
structure Shaped (s : Session τ) : Prop where
  valid : s.settings.Valid
  cached : s.cache.Shaped s.settings

variable {s : Session τ}

namespace Shaped

theorem create {settings : Settings} (valid : settings.Valid) (tokenizer : τ) (text : String) :
    (Session.create settings tokenizer text).Shaped :=
  ⟨valid, LineCache.shaped_forSettings settings⟩

theorem inBounds (shaped : s.Shaped) : s.InBounds := .of_valid shaped.valid shaped.cached

theorem prepare (shaped : s.Shaped) {op : Operation} (takes : s.TakesAccepted op) :
    (s.prepare op).2.Shaped := by
  cases op with
  | edit line text now =>
    simp only [Session.prepare]
    split <;> exact ⟨shaped.valid, shaped.cached⟩
  | setSettings settings => exact ⟨takes.valid, LineCache.shaped_forSettings settings⟩
  | _ => exact ⟨shaped.valid, shaped.cached⟩

theorem keep (shaped : s.Shaped) (dirty : Nat) : (s.keep dirty).Shaped s.settings :=
  (shaped.cached.truncate dirty).truncate s.lineCount

end Shaped

variable [Tokenizer τ]

/-- A pass in which every lookup can fail. -/
def guardedPass (s : Session τ) (dirty : Nat) : Option (PassOutcome × Session τ) :=
  let kept := s.keep dirty
  match Tokenizer.tokenize s.tokenizer s.text with
  | (.error error, tokenizer) =>
    some (.failed error (.forSettings s.settings), { s with tokenizer, cache := kept })
  | (.ok root, tokenizer) => do
    let mapped ← root.guardedOccurrences s.settings.literals
    let cache ← guardedRebuild s.settings kept mapped.occurrences s.lineCount
    let colors ← cache.guardedColorMap s.settings
    let pairs ← cache.guardedPairIndex s.settings
    return (.rendered colors kept.size, { s with tokenizer, cache, colors, pairs })

/-- An operation in which every lookup can fail. -/
def guardedApply (s : Session τ) (op : Operation) : Option (Option PassOutcome × Session τ) :=
  let (dirty, s) := s.prepare op
  match dirty with
  | none => some (none, s)
  | some dirty => (s.guardedPass dirty).map fun (outcome, s) => (some outcome, s)

theorem Shaped.runPass (shaped : s.Shaped) (dirty : Nat) : (s.runPass dirty).value.2.Shaped := by
  cases answer : Tokenizer.tokenize s.tokenizer s.text with
  | mk result tokenizer =>
    cases result with
    | error error =>
      rw [runPass_error answer]
      exact ⟨shaped.valid, shaped.keep dirty⟩
    | ok root =>
      rw [runPass_ok answer]
      exact ⟨shaped.valid, shaped_rebuild (shaped.keep dirty)
        (fun _ membership => shaped.valid.knows_of_occurrence membership) s.lineCount⟩

theorem guardedPass_eq (shaped : s.Shaped) (dirty : Nat) :
    s.guardedPass dirty = some (s.runPass dirty).value := by
  have kept := shaped.keep dirty
  have bounds := shaped.inBounds
  cases answer : Tokenizer.tokenize s.tokenizer s.text with
  | mk result tokenizer =>
    cases result with
    | error error =>
      rw [runPass_error answer]
      simp [guardedPass, answer]
    | ok root =>
      have built := guardedRebuild_eq kept (bounds.mapped root) bounds.counted
      have rebuilt := shaped_rebuild kept (bounds.mapped root) s.lineCount
      rw [runPass_ok answer]
      simp [guardedPass, answer, bounds.cut root, built, LineCache.guardedColorMap_eq rebuilt,
        LineCache.guardedPairIndex_eq rebuilt]

theorem Shaped.apply (shaped : s.Shaped) {op : Operation} (takes : s.TakesAccepted op) :
    (s.apply op).value.2.Shaped := by
  have prepared := shaped.prepare takes
  rw [apply_value]
  cases (s.prepare op).1 with
  | none => exact prepared
  | some dirty => exact prepared.runPass dirty

theorem guardedApply_eq (shaped : s.Shaped) {op : Operation} (takes : s.TakesAccepted op) :
    s.guardedApply op = some (s.apply op).value := by
  have prepared := shaped.prepare takes
  rw [apply_value]
  unfold guardedApply
  cases pass : (s.prepare op).1 with
  | none => simp [pass, runPass?]
  | some dirty => simp [pass, runPass?, guardedPass_eq prepared]

theorem Shaped.of_reaches {settings : Settings} {tokenizer : τ} {text : String}
    (accepted : settings.Accepted)
    (reached : Reaches TakesAccepted (Session.create settings tokenizer text) s) : s.Shaped := by
  induction reached with
  | start => exact .create accepted.valid tokenizer text
  | step op _ takes ih => exact ih.apply takes

/-- With accepted settings no run comes to a lookup, a cut or a remainder that fails. -/
theorem lookups_succeed {settings : Settings} {tokenizer : τ} {text : String}
    (accepted : settings.Accepted)
    (reached : Reaches TakesAccepted (create settings tokenizer text) s) :
    s.InBounds ∧ ∀ op, s.TakesAccepted op → s.guardedApply op = some (s.apply op).value := by
  have shaped := Shaped.of_reaches accepted reached
  exact ⟨shaped.inBounds, fun _ takes => guardedApply_eq shaped takes⟩

/-- New settings of the other mode know fewer pairs than the lines that were cached before. -/
theorem lookups_succeed_new_mode :
    let apart : Settings :=
      ⟨.independent, [⟨0, "[", "]", ⟨⟨"Blue"⟩, []⟩, ⟨"Red"⟩⟩], false, false, 0, []⟩
    let shown := ((create .classic (⟨[false, true]⟩ : Scripted bare) "([\n)]").apply .refresh).value.2
    let swapped := (shown.apply (.setSettings apart)).value.2
    apart.Accepted ∧ swapped.InBounds ∧
      swapped.guardedApply (.edit 1 "([\n]" 0) = some (swapped.apply (.edit 1 "([\n]" 0)).value := by
  intro apart shown swapped
  have read : Settings.ofJson (.object []) = .ok .classic := rfl
  have made : Settings.independent [⟨"[", "]", [⟨"Blue"⟩], ⟨"Red"⟩⟩] =
      .ok { apart with debounce := 200 } := rfl
  have accepted : apart.Accepted := .modified false false 0 [] (.independent made)
  have reached : Reaches TakesAccepted (create .classic ⟨[false, true]⟩ "([\n)]") swapped :=
    .step (.setSettings apart) (.step .refresh .start trivial) accepted
  obtain ⟨bounds, succeeds⟩ := lookups_succeed (.ofJson read) reached
  exact ⟨accepted, bounds, succeeds (.edit 1 "([\n]" 0) trivial⟩

end Session

end BracketColoring

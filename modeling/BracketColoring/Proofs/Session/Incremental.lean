import BracketColoring.Proofs.LineCache.ByLine
import BracketColoring.Proofs.Occurrence.Placed
import BracketColoring.Proofs.Session.Operation

/-!
# Passes over the end of a document

A pass keeps the lines above the lowest edited line and builds the others. That this gives the same
as a pass over the whole document rests on one invariant, `InSync`: every cached line above the line
that waits for a pass holds the occurrences that the present text has on it. Edits lower the waiting
line before the cache changes, and a pass drops lines before it asks for tokens; so the invariant
holds at every moment, whether tokenizers fail or not.
-/

namespace BracketColoring

namespace Tokenizer

variable {τ : Type} [Tokenizer τ]

/-- What a tokenizer can become when it is used. -/
inductive Later (t : τ) : τ → Prop
  | now : Later t t
  | turn {u : τ} (text : String) : Later t u → Later t (tokenize u text).2

theorem Later.next {t u : τ} {text : String} (later : Later (tokenize t text).2 u) : Later t u := by
  induction later with
  | now => exact .turn text .now
  | turn text' _ ih => exact .turn text' ih

/-- Whenever the tokenizer does not fail, its answer is the tree of the text. -/
def Answers (tree : String → Token) (t : τ) : Prop :=
  ∀ u, Later t u → ∀ text root, (tokenize u text).1 = .ok root → root = tree text

variable {tree : String → Token} {t : τ}

theorem Answers.answer (answers : Answers tree t) {text : String} {root : Token}
    (answer : (tokenize t text).1 = .ok root) : root = tree text :=
  answers t .now text root answer

theorem Answers.next (answers : Answers tree t) (text : String) :
    Answers tree (tokenize t text).2 :=
  fun u later => answers u later.next

end Tokenizer

theorem Scripted.answers {tree : String → Token} (t : Scripted tree) : Tokenizer.Answers tree t := by
  intro u _ text root answer
  simp only [Tokenizer.tokenize] at answer
  split at answer
  · cases answer
  · exact (Except.ok.inj answer).symm

namespace Session

variable {τ : Type}

/-- The bracket occurrences of the present text. -/
def occurrences (tree : String → Token) (s : Session τ) : List Occurrence :=
  ((tree s.text).occurrences s.settings.literals).occurrences

/-- The lines of the present text, built without any lines before. -/
def scratch (tree : String → Token) (s : Session τ) : LineCache :=
  .ofLines s.settings (onLines (s.occurrences tree) 0 s.lineCount)

/-- The results of a session are those of its present text. -/
structure UpToDate (tree : String → Token) (s : Session τ) : Prop where
  cache : s.cache = s.scratch tree
  colors : s.colors = s.cache.colorMap s.settings
  pairs : s.pairs = s.cache.pairIndex s.settings

/-- Lines above the waiting line hold the occurrences that the present text has on them. -/
structure InSync (tree : String → Token) (dirty : Option Nat) (s : Session τ) : Prop where
  valid : s.settings.Valid
  lines : s.cache.Built s.settings fun i os =>
    (∀ d ∈ dirty, i < d) → os = onLine (s.occurrences tree) i

/-- An edit leaves the brackets above its line as they are, and settings have passed the checks. -/
def Preserves (tree : String → Token) (s : Session τ) : Operation → Prop
  | .edit line text _ => ∀ i < line,
      onLine (occurrences tree { s with text }) i = onLine (s.occurrences tree) i
  | .setSettings settings => settings.Valid
  | _ => True

variable {tree : String → Token} {s : Session τ} {dirty : Option Nat}

theorem sorted_occurrences (tree : String → Token) (valid : s.settings.Valid) :
    (s.occurrences tree).Pairwise fun a b => a.line ≤ b.line :=
  valid.lines_increase (tree s.text)

theorem UpToDate.agree {σ : Type} {r : Session σ} (first : s.UpToDate tree)
    (second : r.UpToDate tree) (settings : s.settings = r.settings) (text : s.text = r.text) :
    s.cache = r.cache ∧ s.colors = r.colors ∧ s.pairs = r.pairs := by
  have cache : s.cache = r.cache := by
    rw [first.cache, second.cache]
    simp only [scratch, occurrences, lineCount, settings, text]
  refine ⟨cache, ?_, ?_⟩
  · rw [first.colors, second.colors, cache, settings]
  · rw [first.pairs, second.pairs, cache, settings]

namespace InSync

theorem create {settings : Settings} (valid : settings.Valid) (tokenizer : τ) (text : String) :
    InSync tree dirty (Session.create settings tokenizer text) :=
  ⟨valid, .forSettings settings⟩

theorem imp {dirty' : Option Nat} (sync : InSync tree dirty s)
    (lower : ∀ i, (∀ d ∈ dirty', i < d) → ∀ d ∈ dirty, i < d) : InSync tree dirty' s :=
  ⟨sync.valid, sync.lines.imp fun i _ good above => good (lower i above)⟩

/-- With nothing waiting all lines are known, and so are those above any line. -/
theorem of_none (sync : InSync tree none s) : InSync tree dirty s :=
  sync.imp (by simp)

theorem kept {d : Nat} (sync : InSync tree (some d) s) :
    (s.keep d).Built s.settings fun i os =>
      i < s.lineCount ∧ os = onLine (s.occurrences tree) i := by
  refine ((sync.lines.truncate d).truncate s.lineCount).imp ?_
  rintro i os ⟨inside, above, good⟩
  exact ⟨inside, good fun d' same => Option.mem_some.mp same ▸ above⟩

theorem size_keep (d : Nat) : (s.keep d).size ≤ s.lineCount := by
  simp only [keep, LineCache.truncate, LineCache.size, List.length_take]
  omega

/-- A pass that has tokens builds the lines of the whole text. -/
theorem rebuild_keep {d : Nat} (sync : InSync tree (some d) s) :
    rebuild s.settings (s.keep d) (s.occurrences tree) s.lineCount = s.scratch tree := by
  have sorted := sorted_occurrences tree sync.valid
  have kept := sync.kept
  have size := LineCache.size_rebuild kept (s.occurrences tree) s.lineCount sorted (size_keep d)
  have built := kept.rebuild (s.occurrences tree) s.lineCount sorted
    fun i _ inside => ⟨inside, rfl⟩
  rw [(built.imp fun i os good => good.2).eq_ofLines, size]
  rfl

/-- After an edit the lines above it are known, if they were before. -/
theorem edit (sync : InSync tree s.scheduler.dirtyLine? s) {line : Nat} {text : String}
    (same : ∀ i < line,
      onLine (occurrences tree { s with text }) i = onLine (s.occurrences tree) i)
    (now : Nat) (scheduler : Scheduler) :
    InSync tree (s.scheduler.noteEdit line now).value.2.dirtyLine?
      { s with text, scheduler } := by
  refine ⟨sync.valid, sync.lines.imp ?_⟩
  intro i os good above
  rw [Scheduler.dirtyLine?_noteEdit] at above
  -- The line that now waits is the lower of the one that waited and the edited one.
  have lower := above _ rfl
  have inside : i < line := by
    cases waiting : s.scheduler.dirtyLine? with
    | none => simpa [waiting] using lower
    | some d =>
      rw [waiting] at lower
      exact (Nat.lt_min.mp lower).2
  have known : os = onLine (s.occurrences tree) i := by
    apply good
    intro d waiting
    rw [waiting] at lower
    exact (Nat.lt_min.mp lower).1
  rw [known]
  exact (same i inside).symm

/-- What is done before a pass leaves the lines known that are above the line of the pass, or above
the waiting line if there is no pass. -/
theorem prepare (sync : InSync tree s.scheduler.dirtyLine? s) {op : Operation}
    (preserves : s.Preserves tree op) :
    InSync tree ((s.prepare op).1.or (s.prepare op).2.scheduler.dirtyLine?) (s.prepare op).2 := by
  cases op with
  | subscribe id => exact ⟨sync.valid, sync.lines⟩
  | edit line text now =>
    have edited := sync.edit preserves now
    simp only [Session.prepare]
    split
    · rw [Scheduler.take_value, Scheduler.dirtyLine?_reset, Option.or_none]
      exact edited _
    · exact edited _
  | poll now =>
    simp only [Session.prepare]
    rcases s.scheduler.poll_value now with fired | waits
    · rw [fired, Scheduler.dirtyLine?_reset, Option.or_none]
      exact ⟨sync.valid, sync.lines⟩
    · rw [waits, Option.none_or]
      exact sync
  | flush =>
    simp only [Session.prepare]
    rw [Scheduler.take_value, Scheduler.dirtyLine?_reset, Option.or_none]
    exact ⟨sync.valid, sync.lines⟩
  | refresh =>
    -- There is no line above the first.
    exact ⟨sync.valid, sync.lines.imp fun i _ _ above => absurd (above 0 rfl) (Nat.not_lt_zero i)⟩
  | setSettings settings => exact ⟨preserves, .forSettings settings⟩

end InSync

variable [Tokenizer τ]

/-- A pass leaves nothing waiting, also when it fails. -/
theorem InSync.runPass {d : Nat} (sync : InSync tree (some d) s)
    (answers : Tokenizer.Answers tree s.tokenizer) : InSync tree none (s.runPass d).value.2 := by
  have sorted := sorted_occurrences tree sync.valid
  cases answer : Tokenizer.tokenize s.tokenizer s.text with
  | mk result tokenizer =>
    cases result with
    | error error =>
      -- No line is added, and those that are left lie above the line of the pass.
      rw [runPass_error answer]
      exact ⟨sync.valid, sync.kept.imp fun i os good _ => good.2⟩
    | ok root =>
      have known : root = tree s.text := answers.answer (by rw [answer])
      rw [runPass_ok answer]
      subst known
      exact ⟨sync.valid, (sync.kept.rebuild _ s.lineCount sorted fun i _ inside =>
        ⟨inside, rfl⟩).imp fun i os good _ => good.2⟩

theorem InSync.upToDate {d : Nat} (sync : InSync tree (some d) s)
    (answers : Tokenizer.Answers tree s.tokenizer) {colors : ColorMap} {line : Nat} {s' : Session τ}
    (rendered : (s.runPass d).value = (.rendered colors line, s')) :
    s'.UpToDate tree ∧ colors = s'.colors ∧ s'.settings = s.settings ∧ s'.text = s.text := by
  obtain ⟨root, tokenizer, answer⟩ := tokens_of_rendered rendered
  have known : root = tree s.text := answers.answer (by rw [answer])
  rw [runPass_ok answer] at rendered
  subst known
  cases rendered
  exact ⟨⟨sync.rebuild_keep, rfl, rfl⟩, rfl, rfl, rfl⟩

/-! ## Runs -/

theorem answers_apply (answers : Tokenizer.Answers tree s.tokenizer) (op : Operation) :
    Tokenizer.Answers tree (s.apply op).value.2.tokenizer := by
  rw [apply_value]
  rw [← tokenizer_prepare s op] at answers
  cases (s.prepare op).1 with
  | none => exact answers
  | some d =>
    simp only [runPass?, tokenizer_runPass]
    exact answers.next _

theorem InSync.apply (sync : InSync tree s.scheduler.dirtyLine? s)
    (answers : Tokenizer.Answers tree s.tokenizer) {op : Operation}
    (preserves : s.Preserves tree op) :
    InSync tree (s.apply op).value.2.scheduler.dirtyLine? (s.apply op).value.2 := by
  have prepared := sync.prepare preserves
  rw [← tokenizer_prepare s op] at answers
  rw [apply_value]
  cases pass : (s.prepare op).1 with
  | none => simpa [pass, runPass?] using prepared
  | some d =>
    rw [pass, Option.some_or] at prepared
    exact (prepared.runPass answers).of_none

theorem InSync.of_reaches {settings : Settings} {tokenizer : τ} {text : String}
    (valid : settings.Valid) (answers : Tokenizer.Answers tree tokenizer)
    (reached : Reaches (Preserves tree) (Session.create settings tokenizer text) s) :
    InSync tree s.scheduler.dirtyLine? s ∧ Tokenizer.Answers tree s.tokenizer := by
  induction reached with
  | start => exact ⟨.create valid tokenizer text, answers⟩
  | step op _ preserves ih =>
    obtain ⟨sync, answers⟩ := ih
    exact ⟨sync.apply answers preserves, answers_apply answers op⟩

/-- An operation that has rendered leaves the session up to date. -/
theorem InSync.upToDate_apply (sync : InSync tree s.scheduler.dirtyLine? s)
    (answers : Tokenizer.Answers tree s.tokenizer) {op : Operation}
    (preserves : s.Preserves tree op) {colors : ColorMap} {line : Nat} {s' : Session τ}
    (rendered : (s.apply op).value = (some (.rendered colors line), s')) :
    s'.UpToDate tree ∧ colors = s'.colors := by
  have prepared := sync.prepare preserves
  rw [← tokenizer_prepare s op] at answers
  obtain ⟨dirty, pass, result⟩ := pass_of_outcome rendered
  rw [pass, Option.some_or] at prepared
  obtain ⟨upToDate, colors, -, -⟩ := prepared.upToDate answers result
  exact ⟨upToDate, colors⟩

/-- What a session shows after a pass that was rendered is what a new session would show, whatever
operations came before, as long as edits keep the brackets above them. -/
theorem rendered_agrees_with_fresh {σ : Type} [Tokenizer σ] {settings : Settings} {tokenizer : τ}
    {text : String} (valid : settings.Valid) (answers : Tokenizer.Answers tree tokenizer)
    (reached : Reaches (Preserves tree) (create settings tokenizer text) s) {op : Operation}
    (preserves : s.Preserves tree op) {colors : ColorMap} {line : Nat} {s' : Session τ}
    (rendered : (s.apply op).value = (some (.rendered colors line), s')) {fresh : σ}
    (freshAnswers : Tokenizer.Answers tree fresh) {freshColors : ColorMap} {freshLine : Nat}
    {r : Session σ}
    (refreshed : (create s'.settings fresh s'.text).refresh.value =
      (.rendered freshColors freshLine, r)) :
    s'.cache = r.cache ∧ s'.colors = r.colors ∧ s'.pairs = r.pairs ∧ colors = freshColors := by
  obtain ⟨sync, answers⟩ := InSync.of_reaches valid answers reached
  obtain ⟨upToDate, shown⟩ := sync.upToDate_apply answers preserves rendered
  have valid' : s'.settings.Valid := by
    have := (sync.apply answers preserves).valid
    rwa [rendered] at this
  have start : InSync tree (some 0) (create s'.settings fresh s'.text) := .create valid' fresh s'.text
  obtain ⟨freshUpToDate, freshShown, sameSettings, sameText⟩ :=
    start.upToDate freshAnswers refreshed
  obtain ⟨cache, colors, pairs⟩ := upToDate.agree freshUpToDate sameSettings.symm sameText.symm
  exact ⟨cache, colors, pairs, by rw [shown, freshShown, colors]⟩

theorem rendered_agrees_with_fresh_after_failure :
    let failed := ((create .classic (⟨[true]⟩ : Scripted bare) "(\n)").apply .refresh).value.2
    let edited := (failed.apply (.edit 1 "(\n]" 0)).value.2
    let early := (edited.apply (.poll 100)).value.2
    let late := (early.apply (.poll 200)).value
    let fresh := (create .classic (⟨[]⟩ : Scripted bare) "(\n]").refresh.value
    late.1.any PassOutcome.isRendered ∧ fresh.1.isRendered ∧
      late.2.cache = fresh.2.cache ∧ late.2.colors = fresh.2.colors ∧
      late.2.pairs = fresh.2.pairs := by
  intro failed edited early late fresh
  have unchanged : failed.Preserves bare (.edit 1 "(\n]" 0) := by
    change ∀ i < 1, onLine ((bare "(\n]").occurrences Settings.classic.literals).occurrences i =
      onLine ((bare "(\n)").occurrences Settings.classic.literals).occurrences i
    simp only [Token.occurrences_eq_mapLeaves]
    decide
  have reached : Reaches (Preserves bare) (create .classic ⟨[true]⟩ "(\n)") early :=
    .step (.poll 100) (.step (.edit 1 "(\n]" 0) (.step .refresh .start trivial) unchanged) trivial
  have allowed : early.Preserves bare (.poll 200) := trivial
  have due : (early.prepare (.poll 200)).1 = some 1 := rfl
  have answer : Tokenizer.tokenize (early.prepare (.poll 200)).2.tokenizer
      (early.prepare (.poll 200)).2.text = (.ok (bare "(\n]"), ⟨[]⟩) := rfl
  have freshAnswer : Tokenizer.tokenize (⟨[]⟩ : Scripted bare) "(\n]" =
      (.ok (bare "(\n]"), ⟨[]⟩) := rfl
  have rendered : late = _ := early.apply_value (.poll 200)
  rw [due, runPass?, runPass_ok answer] at rendered
  have refreshed : fresh = _ := runPass_ok freshAnswer
  obtain ⟨cache, colors, pairs, -⟩ := rendered_agrees_with_fresh Settings.valid_classic
    (Scripted.answers _) reached allowed rendered (Scripted.answers _) refreshed
  rw [rendered, refreshed]
  exact ⟨rfl, rfl, cache, colors, pairs⟩

end Session

end BracketColoring

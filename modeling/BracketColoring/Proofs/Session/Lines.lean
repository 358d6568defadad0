import BracketColoring.Proofs.LineCache.Chained
import BracketColoring.Proofs.Matching.Apart
import BracketColoring.Proofs.Session.Classified
import BracketColoring.Proofs.Session.Failed

/-!
# The cached lines of a session

In every state the cached lines are a chain (`cache_chained`): passes add lines in order, from the
occurrences of one tree each, and whatever drops lines drops them from the end. A pass that is
rendered keeps the lines above its own and builds all others of the text (`rendered_rebuilds`); the
occurrences outside of the lines that it builds are not recorded. What is recorded obeys the laws of
matching and color as if it came from one document, also where lines come from different passes
(`cached_follow_palette`, `cached_match_apart`).
-/

namespace BracketColoring

/-- A pass has found some lines, kept those above `first`, and built the others up to `lines` from
the occurrences of the text. -/
structure RebuiltFrom (found : LineCache) (mapped : List Occurrence) (dirty lines first : Nat)
    (built : LineCache) : Prop where
  starts : first = min dirty (min found.size lines)
  kept : ∀ i < first, built.lines[i]? = found.lines[i]?
  size : built.size = lines
  recorded : ∀ o ∈ mapped,
    (∃ i l, first ≤ i ∧ built.lines[i]? = some l ∧ o ∈ l.occurrences.map (·.occurrence)) ↔
      first ≤ o.line ∧ o.line < lines
  rebuilt : ∀ (i : Nat) (l : Line), first ≤ i → built.lines[i]? = some l →
    l.occurrences.map (·.occurrence) = onLine mapped i

namespace LineCache

variable {s : Settings} {oss more : List (List Occurrence)}

theorem getElem?_ofLines_append {i : Nat} (inside : i < oss.length) :
    (ofLines s (oss ++ more)).lines[i]? = (ofLines s oss).lines[i]? := by
  have cut := congrArg lines (truncate_ofLines (s := s) (oss ++ more) oss.length)
  rw [List.take_left] at cut
  rw [← cut]
  exact (List.getElem?_take_of_lt inside).symm

/-- The lines that are added to a cache hold the occurrences that start on them. -/
theorem occurrences_rebuilt {mapped : List Occurrence} (known : ∀ o ∈ mapped, s.Knows o.pair)
    {count i : Nat} {l : Line} (above : oss.length ≤ i)
    (present : (ofLines s (oss ++ onLines mapped oss.length count)).lines[i]? = some l) :
    l.occurrences.map (·.occurrence) = onLine mapped i := by
  obtain ⟨os, listed, rfl⟩ := exists_of_getElem?_ofLines present
  rw [List.getElem?_append_right above] at listed
  obtain ⟨-, rfl⟩ := getElem?_onLines.mp listed
  rw [Nat.add_sub_cancel' above, Line.processAll_eq]
  simp only [Line.blank, List.nil_append]
  exact Settings.occurrences_matchAll fun o membership => known o (mem_onLine.mp membership).1

theorem recorded_rebuilt_iff {mapped : List Occurrence} (known : ∀ o ∈ mapped, s.Knows o.pair)
    {count : Nat} {o : Occurrence} (membership : o ∈ mapped) :
    (∃ i l, oss.length ≤ i ∧
      (ofLines s (oss ++ onLines mapped oss.length count)).lines[i]? = some l ∧
      o ∈ l.occurrences.map (·.occurrence)) ↔
      oss.length ≤ o.line ∧ o.line < oss.length + count := by
  have size := length_lines_ofLines (s := s) (oss ++ onLines mapped oss.length count)
  rw [List.length_append, length_onLines] at size
  constructor
  · rintro ⟨i, l, above, present, recorded⟩
    rw [occurrences_rebuilt known above present] at recorded
    obtain ⟨inside, -⟩ := List.getElem?_eq_some_iff.mp present
    obtain ⟨-, here⟩ := mem_onLine.mp recorded
    omega
  · rintro ⟨above, below⟩
    rw [← size] at below
    have present := List.getElem?_eq_getElem below
    refine ⟨o.line, _, above, present, ?_⟩
    rw [occurrences_rebuilt known above present]
    exact mem_onLine.mpr ⟨membership, rfl⟩

end LineCache

namespace Session

variable {τ : Type} {s : Session τ}

namespace Grounded

theorem chained (grounded : s.Grounded) : s.cache.Chained s.settings ∧
    (Line.blank 0 (.empty s.settings.mode s.settings.pairs.length)).processAll s.settings
        s.recorded =
      ⟨0, .empty s.settings.mode s.settings.pairs.length, s.cache.carried,
        s.cache.occurrences, .recordAll ⟨[]⟩ s.cache.occurrences⟩ := by
  obtain ⟨oss, equal, each⟩ := grounded.lines
  have known := LineCache.known_flatten grounded.valid each
  unfold recorded
  rw [equal]
  refine ⟨LineCache.chained_ofLines known ?_, LineCache.processAll_occurrences known⟩
  intro i os present o membership
  obtain ⟨root, rfl⟩ := each i os present
  exact (mem_onLine.mp membership).2

theorem rebuiltFrom (grounded : s.Grounded) (dirty : Nat) (root : Token) :
    RebuiltFrom s.cache (root.occurrences s.settings.literals).occurrences dirty s.lineCount
      (s.keep dirty).size
      (Session.rebuild s.settings (s.keep dirty)
        (root.occurrences s.settings.literals).occurrences s.lineCount) := by
  have sorted := grounded.valid.lines_increase root
  have known : ∀ o ∈ (root.occurrences s.settings.literals).occurrences,
      s.settings.Knows o.pair := fun o => grounded.valid.knows_of_occurrence
  have size := s.size_keep dirty
  have lines := s.lines_keep dirty
  obtain ⟨oss, equal, -⟩ := grounded.keep dirty
  rw [equal, LineCache.size_ofLines] at size lines
  rw [equal, LineCache.rebuild_ofLines oss _ s.lineCount sorted, LineCache.size_ofLines]
  have whole : oss.length + (s.lineCount - oss.length) = s.lineCount := by omega
  constructor
  case starts => omega
  case kept =>
    intro i inside
    rw [LineCache.getElem?_ofLines_append inside, lines, List.getElem?_take_of_lt inside]
  case size => rw [LineCache.size_ofLines, List.length_append, length_onLines, whole]
  case recorded =>
    intro o membership
    rw [LineCache.recorded_rebuilt_iff known membership, whole]
  case rebuilt =>
    intro i l above present
    exact LineCache.occurrences_rebuilt known above present

end Grounded

variable [Tokenizer τ]

/-- In every state each line goes on from the line before it, and the lines together are one run. -/
theorem cache_chained {settings : Settings} {tokenizer : τ} {text : String}
    (valid : settings.Valid) (reached : Reaches Checked (create settings tokenizer text) s) :
    s.cache.Chained s.settings ∧
      (Line.blank 0 (.empty s.settings.mode s.settings.pairs.length)).processAll s.settings
          (s.cache.occurrences.map (·.occurrence)) =
        ⟨0, .empty s.settings.mode s.settings.pairs.length, s.cache.carried,
          s.cache.occurrences, .recordAll ⟨[]⟩ s.cache.occurrences⟩ :=
  (Grounded.of_reaches valid reached).chained

theorem cache_chained_after_failure :
    let failed := (create .classic (⟨[false, true]⟩ : Scripted bare) "([\n)]\n(").after
      [.refresh, .edit 2 "([\n)]" 0, .flush]
    failed.cache.size = 2 ∧ failed.cache.occurrences.length = 4 ∧
      failed.cache.Chained failed.settings ∧
      (Line.blank 0 (.empty failed.settings.mode failed.settings.pairs.length)).processAll
          failed.settings (failed.cache.occurrences.map (·.occurrence)) =
        ⟨0, .empty failed.settings.mode failed.settings.pairs.length, failed.cache.carried,
          failed.cache.occurrences, .recordAll ⟨[]⟩ failed.cache.occurrences⟩ := by
  intro failed
  have reached : Reaches Checked (create .classic ⟨[false, true]⟩ "([\n)]\n(") failed :=
    .step .flush (.step (.edit 2 "([\n)]" 0) (.step .refresh .start trivial) trivial) trivial
  obtain ⟨lines, brackets⟩ : failed.cache.size = 2 ∧ failed.cache.occurrences.length = 4 := by
    decide +kernel
  exact ⟨lines, brackets, cache_chained Settings.valid_classic reached⟩

/-- A pass that is rendered keeps the lines above the line that it reports, and builds the others. -/
theorem rendered_rebuilds {settings : Settings} {tokenizer : τ} {text : String}
    (valid : settings.Valid) (reached : Reaches Checked (create settings tokenizer text) s)
    {op : Operation} (checked : s.Checked op) {colors : ColorMap} {line : Nat} {s' : Session τ}
    (rendered : (s.apply op).value = (some (.rendered colors line), s')) :
    ∃ dirty root, s.firedLine? op = some dirty ∧
      Tokenizer.tokenize s.tokenizer s'.text = (.ok root, s'.tokenizer) ∧
      RebuiltFrom (s.foundCache op) (root.occurrences s'.settings.literals).occurrences dirty
        s'.lineCount line s'.cache := by
  have prepared := (Grounded.of_reaches valid reached).prepare checked
  obtain ⟨dirty, pass, result⟩ := pass_of_outcome rendered
  obtain ⟨root, tokenizer, answer⟩ := tokens_of_rendered result
  have rebuilt := prepared.rebuiltFrom dirty root
  rw [cache_prepare] at rebuilt
  rw [runPass_ok answer] at result
  rw [tokenizer_prepare] at answer
  cases result
  exact ⟨dirty, root, firedLine?_of_pass pass, answer, rebuilt⟩

/-- The tokens of the text go on behind its end, and the edited text is shorter than before. -/
theorem rendered_rebuilds_shorter :
    let tree : String → Token := fun text => bare (text ++ "\n)")
    let shown := (create .classic (⟨[]⟩ : Scripted tree) "(\n[\n]").after
      [.refresh, .edit 1 "(\n[" 0]
    let rebuilt := (shown.apply .flush).value.2
    rebuilt.cache.size = 2 ∧
      RebuiltFrom shown.cache ((tree "(\n[").occurrences Settings.classic.literals).occurrences 1 2 1
        rebuilt.cache := by
  intro tree shown rebuilt
  have reached : Reaches Checked (create .classic ⟨[]⟩ "(\n[\n]") shown :=
    .step (.edit 1 "(\n[" 0) (.step .refresh .start trivial) trivial
  have allowed : shown.Checked .flush := trivial
  obtain ⟨usable, pass⟩ : (shown.prepare .flush).2.tokenizer.failures = [] ∧
      (shown.prepare .flush).1 = some 1 := by decide +kernel
  obtain ⟨colors, line, rendered⟩ :=
    rendered_of_tokens pass (Scripted.tokenize_of_usable usable _)
  obtain ⟨dirty, root, fired, tokens, kept⟩ :=
    rendered_rebuilds Settings.valid_classic reached allowed rendered
  rw [firedLine?_of_pass pass] at fired
  cases fired
  change Tokenizer.tokenize shown.tokenizer rebuilt.text = (.ok root, rebuilt.tokenizer) at tokens
  change RebuiltFrom _ (root.occurrences rebuilt.settings.literals).occurrences 1
    rebuilt.lineCount line rebuilt.cache at kept
  obtain ⟨text, settings, lines, found⟩ : rebuilt.text = "(\n[" ∧ rebuilt.settings = .classic ∧
      rebuilt.lineCount = 2 ∧ (shown.foundCache .flush).size = 3 := by decide +kernel
  rw [← tokenizer_prepare shown .flush] at tokens
  rw [Scripted.tokenize_of_usable usable, text] at tokens
  have same : tree "(\n[" = root := Except.ok.inj (Prod.mk.inj tokens).1
  rw [← same, settings, lines] at kept
  have first : line = 1 := by
    rw [kept.starts, found]
    rfl
  rw [first] at kept
  exact ⟨kept.size, kept⟩

/-! ## What is recorded -/

omit [Tokenizer τ] in
/-- The lines record what one run over their occurrences records. -/
theorem Grounded.occurrences_eq (grounded : s.Grounded) :
    s.cache.occurrences = (s.settings.matchAll (.start s.settings) s.recorded).1 ∧
      (∀ o ∈ s.recorded, s.settings.Knows o.pair) ∧ (s.recorded.map (·.range)).Nodup := by
  obtain ⟨oss, equal, each⟩ := grounded.lines
  have known := LineCache.known_flatten grounded.valid each
  have ordered := LineCache.ordered_flatten grounded.valid each
  have all : s.recorded = oss.flatten := by
    rw [recorded, equal, LineCache.map_occurrences_ofLines known]
  rw [all, equal]
  refine ⟨congrArg Prod.fst (LineCache.run_ofLines oss), known, ?_⟩
  exact List.pairwise_map.mpr (ordered.imp Range.ne_of_start_lt)

theorem cached_follow_palette {settings : Settings} {tokenizer : τ} {text : String}
    (valid : settings.Valid) (reached : Reaches Checked (create settings tokenizer text) s)
    (mode : s.settings.mode = .consecutive) :
    ∃ palette, (∀ d ∈ s.settings.pairs, d.palette = palette) ∧
      FollowsPalette s.settings palette s.recorded s.cache.occurrences := by
  have grounded := Grounded.of_reaches valid reached
  obtain ⟨run, known, -⟩ := grounded.occurrences_eq
  obtain ⟨palette, shared⟩ := Settings.exists_palette grounded.valid mode
  exact ⟨palette, shared, run ▸ Settings.followsPalette_matchAll shared mode known⟩

theorem cached_match_apart {settings : Settings} {tokenizer : τ} {text : String}
    (valid : settings.Valid) (reached : Reaches Checked (create settings tokenizer text) s)
    (mode : s.settings.mode = .independent) :
    MatchesApart s.settings s.recorded s.cache.occurrences := by
  obtain ⟨run, known, distinct⟩ := (Grounded.of_reaches valid reached).occurrences_eq
  exact run ▸ Settings.matchesApart_matchAll mode known distinct

end Session

end BracketColoring

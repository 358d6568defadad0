import BracketColoring.Proofs.ColorMap.Document
import BracketColoring.Proofs.Matching.Apart
import BracketColoring.Proofs.Session.Subscribers

/-!
# One pair of brackets

With one pair the two modes do the same: the only pile is the shared stack. So two sessions that
differ in this alone, and whose tokenizers answer alike, go through the same passes with the same
results. They are compared by `Twins`, which says that their lines were built from the same
occurrences; every operation keeps it.
-/

namespace BracketColoring

namespace Settings

/-- The same single pair, colored by depth on one stack and by itself. -/
structure SamePair (s t : Settings) : Prop where
  valid : s.Valid
  shared : s.mode = .consecutive
  apart : t.mode = .independent
  byDepth : s.cycleOpenings = false
  pairs : t.pairs = s.pairs
  single : s.pairs.length = 1

section

variable {opening closing : String} {palette : List Color} {orphan : Color} {s t : Settings}

theorem exists_pair_of_consecutive
    (accepted : consecutive [(opening, closing)] palette orphan = .ok s) :
    ∃ d, PairDefinition.ofSpec (FieldPath.index ⟨"pairs", []⟩ 0) 0
        ⟨opening, closing, palette, orphan⟩ = .ok d ∧
      s = { mode := .consecutive, pairs := [d] } := by
  obtain ⟨⟨⟩, -, accepted⟩ := exists_of_bind_ok accepted
  obtain ⟨-, accepted⟩ := passed_of_ok accepted
  obtain ⟨pairs, done, accepted⟩ := exists_of_bind_ok accepted
  obtain ⟨d, checked, rfl⟩ := exists_of_mapM_singleton_ok done
  cases accepted
  exact ⟨d, checked, rfl⟩

theorem exists_pair_of_independent
    (accepted : independent [⟨opening, closing, palette, orphan⟩] = .ok t) :
    ∃ d, PairDefinition.ofSpec (FieldPath.index ⟨"pairs", []⟩ 0) 0
        ⟨opening, closing, palette, orphan⟩ = .ok d ∧
      t = { mode := .independent, pairs := [d] } := by
  obtain ⟨pairs, done, accepted⟩ := exists_of_bind_ok accepted
  obtain ⟨d, checked, rfl⟩ := exists_of_mapM_singleton_ok done
  obtain ⟨⟨⟩, -, checked⟩ := exists_of_bind_ok checked
  cases accepted
  exact ⟨d, checked, rfl⟩

/-- A pair that both constructors accept is the same pair in both. -/
theorem samePair_of_accepted (together : consecutive [(opening, closing)] palette orphan = .ok s)
    (apart : independent [⟨opening, closing, palette, orphan⟩] = .ok t)
    (unique unique' cycle' : Bool) (debounce : Nat) :
    SamePair { s with uniqueOpening := unique, debounce }
      { t with uniqueOpening := unique', cycleOpenings := cycle', debounce } := by
  have valid := valid_consecutive together
  obtain ⟨d, checked, rfl⟩ := exists_pair_of_consecutive together
  obtain ⟨d', checked', rfl⟩ := exists_pair_of_independent apart
  obtain rfl : d = d' := Except.ok.inj (checked.symm.trans checked')
  exact ⟨valid.modify rfl rfl, rfl, rfl, rfl, rfl, rfl⟩

end

namespace SamePair

variable {s t : Settings} {os : List Occurrence}

theorem knows (same : SamePair s t) {id : PairId} (known : s.Knows id) : t.Knows id := by
  obtain ⟨d, pair, numbered⟩ := known
  exact ⟨d, by rw [pair?, same.pairs]; exact pair, numbered⟩

theorem eq_zero (same : SamePair s t) {id : PairId} (known : s.Knows id) : id = 0 := by
  obtain ⟨d, pair, -⟩ := known
  have inside := (List.getElem?_eq_some_iff.mp pair).1
  rw [same.single] at inside
  exact Nat.lt_one_iff.mp inside

/-- The only pile is the shared stack. -/
theorem exists_stack_matchAll (same : SamePair s t) (known : ∀ o ∈ os, s.Knows o.pair) :
    (t.matchAll (.start t) os).1.filter (fun c => c.occurrence.pair = 0) =
        (s.matchAll (.start s) os).1 ∧
      ∃ es opened, (t.matchAll (.start t) os).2 = .perPair [es] ∧
        (s.matchAll (.start s) os).2 = .shared es opened := by
  have known' : ∀ o ∈ os, t.Knows o.pair := fun o membership => same.knows (known o membership)
  have piles : MatchStack.start t = .perPair [[]] := by
    rw [MatchStack.start_of_independent same.apart, same.pairs, same.single]
    rfl
  have whole : part 0 os = os := List.filter_eq_self.mpr fun o membership => by
    simpa using same.eq_zero (known o membership)
  have level : s.colorOffset 0 = 0 := by simp [colorOffset]
  have empty : ([[]] : List (List StackEntry))[0]? = some [] := rfl
  obtain ⟨recorded, piles', es, opened, left, pile, waiting⟩ :=
    matchAll_part (s := t) (t := s) same.pairs.symm same.byDepth level known' empty (by simp) 0
  rw [whole, ← MatchStack.start_of_consecutive same.shared] at recorded waiting
  rw [← piles] at recorded left
  -- The piles are as many as the pairs.
  obtain ⟨fits, -⟩ := colored_matchAll known'
  rw [left] at fits
  have one : piles' = [es] := by
    obtain ⟨only, rfl⟩ := List.length_eq_one_iff.mp (fits.1.trans (same.pairs ▸ same.single))
    simpa using pile
  exact ⟨recorded, es, opened, one ▸ left, waiting⟩

/-- Both record the same, and the same openings wait. -/
theorem matchAll (same : SamePair s t) (known : ∀ o ∈ os, s.Knows o.pair) :
    (t.matchAll (.start t) os).1 = (s.matchAll (.start s) os).1 ∧
      (t.matchAll (.start t) os).2.entries = (s.matchAll (.start s) os).2.entries := by
  obtain ⟨recorded, es, opened, pile, waiting⟩ := same.exists_stack_matchAll known
  have all : ((t.matchAll (.start t) os).1.filter fun c => c.occurrence.pair = 0) =
      (t.matchAll (.start t) os).1 := by
    refine List.filter_eq_self.mpr fun c member => ?_
    have inside := occurrence_mem_of_mem_matchAll (fun o here => same.knows (known o here)) member
    simpa using same.eq_zero (known c.occurrence inside)
  refine ⟨all ▸ recorded, ?_⟩
  rw [pile, waiting]
  simp [MatchStack.entries]

/-! ## Lines -/

variable {oss : List (List Occurrence)}

theorem ofLines (same : SamePair s t) (known : ∀ o ∈ oss.flatten, s.Knows o.pair) :
    (LineCache.ofLines t oss).occurrences = (LineCache.ofLines s oss).occurrences ∧
      (LineCache.ofLines t oss).carried.entries = (LineCache.ofLines s oss).carried.entries := by
  have alike := same.matchAll known
  rwa [← LineCache.run_ofLines, ← LineCache.run_ofLines] at alike

theorem lines_ofLines (same : SamePair s t) (known : ∀ o ∈ oss.flatten, s.Knows o.pair) :
    (LineCache.ofLines t oss).lines.map (·.occurrences) =
      (LineCache.ofLines s oss).lines.map (·.occurrences) := by
  have each : ∀ os ∈ oss, ∀ o ∈ os, s.Knows o.pair := fun os listed o membership =>
    known o (List.mem_flatten_of_mem listed membership)
  have shape : ∀ {r : Settings}, (∀ os ∈ oss, ∀ o ∈ os, r.Knows o.pair) →
      ((LineCache.ofLines r oss).lines.map (·.occurrences)).map List.length =
        oss.map List.length := by
    intro r known
    conv => rhs; rw [← LineCache.lineOccurrences_ofLines known]
    simp [Function.comp_def]
  rw [List.eq_iff_flatten_eq]
  constructor
  · rw [← List.flatMap_def, ← List.flatMap_def]
    exact (same.ofLines known).1
  · rw [shape each, shape fun os listed o membership => same.knows (each os listed o membership)]

theorem colorMap_ofLines (same : SamePair s t) (known : ∀ o ∈ oss.flatten, s.Knows o.pair) :
    (LineCache.ofLines t oss).colorMap t = (LineCache.ofLines s oss).colorMap s := by
  obtain ⟨recorded, waiting⟩ := same.ofLines known
  rw [LineCache.colorMap_ofLines, LineCache.colorMap_ofLines, recorded]
  simp only [ColorMap.ofRun, ColorMap.finalPaint, ColorMap.finalColor, ColorMap.sweep,
    PairIndex.withPairs, colors, pair?, same.pairs, waiting]

theorem pairIndex_ofLines (same : SamePair s t) (known : ∀ o ∈ oss.flatten, s.Knows o.pair) :
    (LineCache.ofLines t oss).pairIndex t = (LineCache.ofLines s oss).pairIndex s := by
  obtain ⟨recorded, waiting⟩ := same.ofLines known
  rw [LineCache.pairIndex_ofLines, LineCache.pairIndex_ofLines, recorded]
  simp only [PairIndex.ofRun, PairIndex.withPairs, pair?, same.pairs, waiting]

end SamePair

end Settings

/-! ## Tokenizers that answer alike -/

namespace Tokenizer

variable {τ σ : Type} [Tokenizer τ] [Tokenizer σ]

/-- What a tokenizer answers when it is asked for the trees of texts in turn. -/
def answersTo (t : τ) : List String → List (Except TokenizeError Token)
  | [] => []
  | text :: rest => (tokenize t text).1 :: answersTo (tokenize t text).2 rest

/-- Two tokenizers give the same trees and fail at the same calls. -/
def AnswerAlike (t : τ) (u : σ) : Prop := ∀ texts, answersTo t texts = answersTo u texts

namespace AnswerAlike

variable {t : τ} {u : σ}

theorem answer (alike : AnswerAlike t u) (text : String) :
    (tokenize u text).1 = (tokenize t text).1 :=
  (List.cons.inj (alike [text])).1.symm

theorem next (alike : AnswerAlike t u) (text : String) :
    AnswerAlike (tokenize t text).2 (tokenize u text).2 :=
  fun texts => (List.cons.inj (alike (text :: texts))).2

end AnswerAlike

end Tokenizer

namespace Session

variable {τ σ : Type} [Tokenizer τ] [Tokenizer σ] {s : Session τ} {t : Session σ}

/-- Two sessions that differ in their color modes only. -/
structure Twins (s : Session τ) (t : Session σ) : Prop where
  same : s.settings.SamePair t.settings
  tokenizer : Tokenizer.AnswerAlike s.tokenizer t.tokenizer
  text : t.text = s.text
  scheduler : t.scheduler = s.scheduler
  colors : t.colors = s.colors
  pairs : t.pairs = s.pairs
  subscribers : t.subscribers = s.subscribers
  lines : ∃ oss, s.cache = .ofLines s.settings oss ∧ t.cache = .ofLines t.settings oss ∧
    ∀ o ∈ oss.flatten, s.settings.Knows o.pair

namespace Twins

theorem create {r r' : Settings} (same : r.SamePair r') (delay : r'.debounce = r.debounce)
    {tokenizer : τ} {tokenizer' : σ} (alike : Tokenizer.AnswerAlike tokenizer tokenizer')
    (text : String) :
    Twins (Session.create r tokenizer text) (Session.create r' tokenizer' text) where
  same := same
  tokenizer := alike
  text := rfl
  scheduler := by rw [Session.create, delay, Session.create]
  colors := by simp only [Session.create, ColorMap.forSettings, Settings.colors, same.pairs]
  pairs := rfl
  subscribers := rfl
  lines := ⟨[], rfl, rfl, by simp⟩

theorem prepare (twins : s.Twins t) {op : Operation} (keeps : op.swaps = false) :
    (t.prepare op).1 = (s.prepare op).1 ∧ (s.prepare op).2.Twins (t.prepare op).2 := by
  obtain ⟨same, tokenizer, text, scheduler, colors, pairs, subscribers, lines⟩ := twins
  cases op with
  | subscribe id =>
    exact ⟨rfl, same, tokenizer, text, scheduler, colors, pairs,
      congrArg (· ++ [id]) subscribers, lines⟩
  | edit line new now =>
    dsimp only [Session.prepare]
    rw [scheduler]
    split <;> exact ⟨rfl, same, tokenizer, rfl, rfl, colors, pairs, subscribers, lines⟩
  | setSettings settings => cases keeps
  | _ =>
    dsimp only [Session.prepare]
    rw [scheduler]
    exact ⟨rfl, same, tokenizer, text, rfl, colors, pairs, subscribers, lines⟩

theorem lineCount (twins : s.Twins t) : t.lineCount = s.lineCount := by
  rw [Session.lineCount, twins.text, Session.lineCount]

/-- The same lines are kept. -/
theorem keep (twins : s.Twins t) (dirty : Nat) :
    ∃ oss, s.keep dirty = .ofLines s.settings oss ∧ t.keep dirty = .ofLines t.settings oss ∧
      ∀ o ∈ oss.flatten, s.settings.Knows o.pair := by
  obtain ⟨oss, left, right, known⟩ := twins.lines
  refine ⟨(oss.take dirty).take s.lineCount, ?_, ?_, ?_⟩
  · rw [Session.keep, left, LineCache.truncate_ofLines, LineCache.truncate_ofLines]
  · rw [Session.keep, right, LineCache.truncate_ofLines, LineCache.truncate_ofLines,
      twins.lineCount]
  · intro o membership
    obtain ⟨os, listed, inside⟩ := List.mem_flatten.mp membership
    have old := List.mem_of_mem_take (List.mem_of_mem_take listed)
    exact known o (List.mem_flatten_of_mem old inside)

/-- The missing lines are built from the same occurrences. -/
theorem rebuild (twins : s.Twins t) (dirty : Nat) (root : Token) :
    ∃ oss, Session.rebuild s.settings (s.keep dirty)
        (root.occurrences s.settings.literals).occurrences s.lineCount = .ofLines s.settings oss ∧
      Session.rebuild t.settings (t.keep dirty)
        (root.occurrences t.settings.literals).occurrences t.lineCount = .ofLines t.settings oss ∧
      ∀ o ∈ oss.flatten, s.settings.Knows o.pair := by
  obtain ⟨oss, left, right, known⟩ := twins.keep dirty
  have literals : t.settings.literals = s.settings.literals := by
    rw [Settings.literals, twins.same.pairs, Settings.literals]
  have sorted := twins.same.valid.lines_increase root
  rw [left, right, literals, twins.lineCount, LineCache.rebuild_ofLines oss _ _ sorted,
    LineCache.rebuild_ofLines oss _ _ sorted]
  refine ⟨_, rfl, rfl, ?_⟩
  intro o membership
  rw [List.flatten_append] at membership
  rcases List.mem_append.mp membership with old | new
  · exact known o old
  · obtain ⟨os, listed, inside⟩ := List.mem_flatten.mp new
    obtain ⟨i, -, rfl⟩ := List.mem_map.mp listed
    exact twins.same.valid.knows_of_occurrence (mem_onLine.mp inside).1

/-- A pass has the same outcome on both sides, whether the tokenizers fail or not. -/
theorem runPass (twins : s.Twins t) (dirty : Nat) :
    (t.runPass dirty).value.1 = (s.runPass dirty).value.1 ∧
      (s.runPass dirty).value.2.Twins (t.runPass dirty).value.2 ∧
      (t.runPass dirty).renders = (s.runPass dirty).renders := by
  obtain ⟨oss, left, right, known⟩ := twins.keep dirty
  have alike := twins.tokenizer.answer s.text
  have later := twins.tokenizer.next s.text
  cases answer : Tokenizer.tokenize s.tokenizer s.text with
  | mk result tokenizer =>
    cases answer' : Tokenizer.tokenize t.tokenizer t.text with
    | mk result' tokenizer' =>
      rw [← twins.text, answer', twins.text, answer] at alike later
      obtain rfl : result' = result := alike
      cases result' with
      | error error =>
        have blank : ColorMap.forSettings t.settings = .forSettings s.settings := by
          simp only [ColorMap.forSettings, Settings.colors, twins.same.pairs]
        rw [renders_runPass_error answer, renders_runPass_error answer', runPass_error answer,
          runPass_error answer', blank]
        exact ⟨rfl, ⟨twins.same, later, twins.text, twins.scheduler, twins.colors, twins.pairs,
          twins.subscribers, oss, left, right, known⟩, rfl⟩
      | ok root =>
        obtain ⟨built, first, second, knownBuilt⟩ := twins.rebuild dirty root
        have colors := twins.same.colorMap_ofLines knownBuilt
        have pairs := twins.same.pairIndex_ofLines knownBuilt
        have start : (t.keep dirty).size = (s.keep dirty).size := by
          rw [left, right, LineCache.size_ofLines, LineCache.size_ofLines]
        rw [renders_runPass_ok answer, renders_runPass_ok answer', runPass_ok answer,
          runPass_ok answer']
        simp only [first, second, colors, pairs, start, twins.subscribers]
        exact ⟨trivial, ⟨twins.same, later, twins.text, twins.scheduler, rfl, rfl, rfl, built, rfl,
          rfl, knownBuilt⟩, trivial⟩

theorem apply (twins : s.Twins t) {op : Operation} (keeps : op.swaps = false) :
    t.turn op = s.turn op ∧ (s.apply op).value.2.Twins (t.apply op).value.2 := by
  obtain ⟨line, prepared⟩ := twins.prepare keeps
  rw [turn, turn, renders_apply, renders_apply, apply_value, apply_value, line]
  cases (s.prepare op).1 with
  | none => exact ⟨rfl, prepared⟩
  | some dirty =>
    obtain ⟨outcome, next, renders⟩ := prepared.runPass dirty
    simp only [runPass?, Option.elim_some, outcome, renders]
    exact ⟨trivial, next⟩

theorem after (twins : s.Twins t) {ops : List Operation} (keep : ∀ op ∈ ops, op.swaps = false) :
    t.turns ops = s.turns ops ∧ (s.after ops).Twins (t.after ops) := by
  induction ops generalizing s t with
  | nil => exact ⟨rfl, twins⟩
  | cons op rest ih =>
    obtain ⟨turn, next⟩ := twins.apply (keep op List.mem_cons_self)
    obtain ⟨turns, last⟩ :=
      ih next fun op' membership => keep op' (List.mem_cons_of_mem op membership)
    exact ⟨by rw [Session.turns, Session.turns, turn, turns], last⟩

theorem lineOccurrences (twins : s.Twins t) :
    t.cache.lines.map (·.occurrences) = s.cache.lines.map (·.occurrences) := by
  obtain ⟨oss, left, right, known⟩ := twins.lines
  rw [left, right]
  exact twins.same.lines_ofLines known

end Twins

/-- With one pair, and without stepping on at every opening, the two modes cannot be told apart,
whatever is done with the sessions. -/
theorem modes_agree_on_one_pair {opening closing : String} {palette : List Color} {orphan : Color}
    {shared own : Settings}
    (together : Settings.consecutive [(opening, closing)] palette orphan = .ok shared)
    (apart : Settings.independent [⟨opening, closing, palette, orphan⟩] = .ok own)
    (unique unique' cycle' : Bool) (debounce : Nat) {tokenizer : τ} {tokenizer' : σ}
    (alike : Tokenizer.AnswerAlike tokenizer tokenizer') (text : String) {ops : List Operation}
    (keep : ∀ op ∈ ops, op.swaps = false) :
    let s := create { shared with uniqueOpening := unique, debounce } tokenizer text
    let t := create { own with uniqueOpening := unique', cycleOpenings := cycle', debounce }
      tokenizer' text
    t.turns ops = s.turns ops ∧ (t.after ops).colors = (s.after ops).colors ∧
      (t.after ops).pairs = (s.after ops).pairs ∧
      (t.after ops).cache.lines.map (·.occurrences) =
        (s.after ops).cache.lines.map (·.occurrences) := by
  intro s t
  have same := Settings.samePair_of_accepted together apart unique unique' cycle' debounce
  obtain ⟨turns, twins⟩ := (Twins.create same rfl alike text).after keep
  exact ⟨turns, twins.colors, twins.pairs, twins.lineOccurrences⟩

theorem modes_agree_on_one_pair_after_failure :
    let palette : List Color := [⟨"Gold"⟩, ⟨"Orchid"⟩]
    let pairs : List PairDefinition := [⟨0, "(", ")", ⟨⟨"Gold"⟩, [⟨"Orchid"⟩]⟩, ⟨"Red"⟩⟩]
    let s := create { mode := .consecutive, pairs, uniqueOpening := true }
      (⟨[false, true]⟩ : Scripted bare) "((\n)"
    let t := create { mode := .independent, pairs } (⟨[false, true]⟩ : Scripted bare) "((\n)"
    let ops := [.refresh, .edit 1 "((\n))" 0, .flush, .edit 1 "((\n)))" 300, .poll 500]
    Settings.consecutive [("(", ")")] palette ⟨"Red"⟩ = .ok { mode := .consecutive, pairs } ∧
      Settings.independent [⟨"(", ")", palette, ⟨"Red"⟩⟩] = .ok { mode := .independent, pairs } ∧
      (s.turns ops).map (·.rendered) = [true, false, false, false, true] ∧
      t.turns ops = s.turns ops ∧ (t.after ops).colors = (s.after ops).colors ∧
      (t.after ops).cache.lines.map (·.occurrences) =
        (s.after ops).cache.lines.map (·.occurrences) := by
  intro palette pairs s t ops
  have together : Settings.consecutive [("(", ")")] palette ⟨"Red"⟩ =
      .ok { mode := .consecutive, pairs } := rfl
  have apart : Settings.independent [⟨"(", ")", palette, ⟨"Red"⟩⟩] =
      .ok { mode := .independent, pairs } := rfl
  have alike : Tokenizer.AnswerAlike (⟨[false, true]⟩ : Scripted bare)
      (⟨[false, true]⟩ : Scripted bare) := fun _ => rfl
  have keep : ∀ op ∈ ops, op.swaps = false := by decide
  obtain ⟨turns, colors, -, lines⟩ :=
    modes_agree_on_one_pair together apart true false false 200 alike "((\n)" keep
  exact ⟨together, apart, by decide +kernel, turns, colors, lines⟩

end Session

end BracketColoring

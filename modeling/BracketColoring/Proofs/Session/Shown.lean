import BracketColoring.Proofs.ColorMap.Document
import BracketColoring.Proofs.Occurrence.Leaves
import BracketColoring.Proofs.Session.Classified

/-!
# What a session shows

The colors and the pairs of a session need not belong to its cached lines: a pass that fails drops
lines and leaves both as they were. But they always belong to the same lines, built under the
settings now in force, and this is what an operation keeps (`Shown.apply`). So the color map and the
pair index agree in every state, also after failures, and the map always has the colors of the
settings.
-/

namespace BracketColoring

@[simp] theorem ColorMap.ofPaint_nil (colors : List Color) : ofPaint colors [] = blank colors := by
  simp [ofPaint, blank, rangesOf, inOrder, Ordered.sort]

@[simp] theorem LineCache.colorMap_forSettings (s : Settings) :
    (LineCache.forSettings s).colorMap s = .forSettings s :=
  ColorMap.ofPaint_nil s.colors

@[simp] theorem LineCache.pairIndex_forSettings (s : Settings) :
    (LineCache.forSettings s).pairIndex s = .empty := rfl

namespace Session

variable {τ : Type} {s : Session τ}

/-- The colors and the pairs are those of lines that hold what some tree has on them. -/
structure Shown (s : Session τ) : Prop extends Grounded s where
  drawn : ∃ cache : LineCache, cache.Built s.settings (FromTree s.settings.literals) ∧
    s.colors = cache.colorMap s.settings ∧ s.pairs = cache.pairIndex s.settings

theorem drawn_forSettings (settings : Settings) :
    ∃ cache : LineCache, cache.Built settings (FromTree settings.literals) ∧
      ColorMap.forSettings settings = cache.colorMap settings ∧
      PairIndex.empty = cache.pairIndex settings :=
  ⟨.forSettings settings, .forSettings settings, (LineCache.colorMap_forSettings settings).symm,
    (LineCache.pairIndex_forSettings settings).symm⟩

namespace Shown

theorem create {settings : Settings} (valid : settings.Valid) (tokenizer : τ) (text : String) :
    (Session.create settings tokenizer text).Shown where
  toGrounded := .create valid tokenizer text
  drawn := drawn_forSettings settings

theorem prepare (shown : s.Shown) {op : Operation} (checked : s.Checked op) :
    (s.prepare op).2.Shown := by
  refine ⟨shown.toGrounded.prepare checked, ?_⟩
  cases op with
  | edit line text now =>
    simp only [Session.prepare]
    split <;> exact shown.drawn
  | setSettings settings => exact drawn_forSettings settings
  | _ => exact shown.drawn

theorem agrees (shown : s.Shown) : s.colors.Agrees s.pairs := by
  obtain ⟨cache, ⟨oss, rfl, each⟩, colors, pairs⟩ := shown.drawn
  rw [colors, pairs]
  exact LineCache.agrees (LineCache.known_flatten shown.valid each)
    (LineCache.ordered_flatten shown.valid each)

theorem partitions (shown : s.Shown) : s.colors.Partitions s.settings := by
  obtain ⟨cache, ⟨oss, rfl, each⟩, colors, -⟩ := shown.drawn
  rw [colors]
  exact LineCache.partitions (LineCache.known_flatten shown.valid each)
    (LineCache.ordered_flatten shown.valid each)

end Shown

theorem Grounded.lists (grounded : s.Grounded) : (s.cache.colorMap s.settings).Lists s.settings
    s.cache.occurrences s.cache.carried := by
  obtain ⟨oss, equal, each⟩ := grounded.lines
  rw [equal]
  exact LineCache.lists (LineCache.known_flatten grounded.valid each)
    (LineCache.ordered_flatten grounded.valid each)

variable [Tokenizer τ]

/-- A pass that fails shows what was shown before; one that renders shows the lines it has built. -/
theorem Shown.runPass (shown : s.Shown) (dirty : Nat) : (s.runPass dirty).value.2.Shown := by
  refine ⟨shown.toGrounded.runPass dirty, ?_⟩
  cases answer : Tokenizer.tokenize s.tokenizer s.text with
  | mk result tokenizer =>
    cases result with
    | error error =>
      rw [runPass_error answer]
      exact shown.drawn
    | ok root =>
      rw [runPass_ok answer]
      exact ⟨_, shown.toGrounded.rebuild dirty root, rfl, rfl⟩

theorem Shown.apply (shown : s.Shown) {op : Operation} (checked : s.Checked op) :
    (s.apply op).value.2.Shown := by
  rw [apply_value]
  cases (s.prepare op).1 with
  | none => exact shown.prepare checked
  | some dirty => exact (shown.prepare checked).runPass dirty

theorem Shown.of_reaches {settings : Settings} {tokenizer : τ} {text : String}
    (valid : settings.Valid)
    (reached : Reaches Checked (Session.create settings tokenizer text) s) : s.Shown := by
  induction reached with
  | start => exact .create valid tokenizer text
  | step op _ checked ih => exact ih.apply checked

theorem colors_of_rendered {op : Operation} {colors : ColorMap} {line : Nat} {s' : Session τ}
    (rendered : (s.apply op).value = (some (.rendered colors line), s')) :
    colors = s'.colors ∧ s'.colors = s'.cache.colorMap s'.settings := by
  obtain ⟨dirty, -, result⟩ := pass_of_outcome rendered
  obtain ⟨root, tokenizer, answer⟩ := tokens_of_rendered result
  rw [runPass_ok answer] at result
  cases result
  exact ⟨rfl, rfl⟩

/-- The color map paints the brackets that the pair index lists, in the colors that the index gives
them, and nothing else. -/
theorem colors_agree_with_pairs {settings : Settings} {tokenizer : τ} {text : String}
    (valid : settings.Valid) (reached : Reaches Checked (create settings tokenizer text) s) :
    s.colors.Agrees s.pairs :=
  (Shown.of_reaches valid reached).agrees

theorem colors_agree_with_pairs_after_failure :
    let rendered :=
      ((create .classic (⟨[false, true]⟩ : Scripted bare) "([)]").apply .refresh).value.2
    let failed := (rendered.apply .refresh).value.2
    failed.cache.size = 0 ∧ failed.pairs.size = 1 ∧ failed.colors.Agrees failed.pairs := by
  intro rendered failed
  have reached : Reaches Checked (create .classic ⟨[false, true]⟩ "([)]") failed :=
    .step .refresh (.step .refresh .start trivial) trivial
  have first : rendered = _ := congrArg Prod.snd (apply_refresh_ok rfl)
  have second : failed = _ :=
    congrArg Prod.snd (apply_refresh_error (s := rendered) (by rw [first]; rfl))
  refine ⟨?_, ?_, colors_agree_with_pairs Settings.valid_classic reached⟩
  · rw [second]
    simp [keep, LineCache.size, LineCache.truncate]
  · rw [second, first, Token.occurrences_eq_mapLeaves]
    decide

/-- The color map has the colors of the settings and no range twice; after a pass that was rendered
it holds the brackets on the lines, lone openings in the color for lone brackets. -/
theorem colors_partition_brackets {settings : Settings} {tokenizer : τ} {text : String}
    (valid : settings.Valid) (reached : Reaches Checked (create settings tokenizer text) s) :
    s.colors.Partitions s.settings ∧
      ∀ op, s.Checked op → ∀ colors line s',
        (s.apply op).value = (some (.rendered colors line), s') →
          colors = s'.colors ∧
            s'.colors.Lists s'.settings s'.cache.occurrences s'.cache.carried := by
  have shown := Shown.of_reaches valid reached
  refine ⟨shown.partitions, ?_⟩
  intro op checked colors line s' rendered
  have grounded := shown.toGrounded.apply checked
  rw [rendered] at grounded
  obtain ⟨same, drawn⟩ := colors_of_rendered rendered
  rw [drawn]
  exact ⟨same.trans drawn, grounded.lists⟩

theorem colors_partition_brackets_again :
    let rendered :=
      ((create .classic (⟨[false, true]⟩ : Scripted bare) "([)]").apply .refresh).value.2
    let failed := (rendered.apply .refresh).value.2
    let again := (failed.apply .refresh).value.2
    failed.colors.Partitions failed.settings ∧ again.colors.rangeCount = 4 ∧
      again.colors.Lists again.settings again.cache.occurrences again.cache.carried := by
  intro rendered failed again
  have reached : Reaches Checked (create .classic ⟨[false, true]⟩ "([)]") failed :=
    .step .refresh (.step .refresh .start trivial) trivial
  have first : rendered = _ := congrArg Prod.snd (apply_refresh_ok rfl)
  have second : failed = _ :=
    congrArg Prod.snd (apply_refresh_error (s := rendered) (by rw [first]; rfl))
  have answer : Tokenizer.tokenize failed.tokenizer failed.text = (.ok (bare "([)]"), ⟨[]⟩) := by
    rw [second, first]
    rfl
  have third := apply_refresh_ok answer
  obtain ⟨partitions, lists⟩ := colors_partition_brackets Settings.valid_classic reached
  have whole : again = _ := congrArg Prod.snd third
  have listed : again.colors.Lists again.settings again.cache.occurrences again.cache.carried := by
    rw [whole]
    exact (lists .refresh trivial _ _ _ third).2
  refine ⟨partitions, ?_, listed⟩
  rw [listed.count, whole, second, first]
  simp only [Token.occurrences_eq_mapLeaves]
  decide

end Session

end BracketColoring

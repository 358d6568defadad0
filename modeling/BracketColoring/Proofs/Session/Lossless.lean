import BracketColoring.Proofs.Position.Text
import BracketColoring.Proofs.Session.Shown

/-!
# Sessions whose tokens make up the text

The lines of a document are counted in its text, and occurrences are placed by the leaves of its
tokens. When the leaves make up the text, both agree: nothing lies past the end, and what a refresh
shows are literals of the text, each where the pair that it is listed under has it.
-/

namespace BracketColoring

/-- The pair index lists each range of the map, and under whatever pair it lists one, the text has
the literal of that pair there. -/
structure ColorMap.Quotes (m : ColorMap) (s : Settings) (x : PairIndex) (text : List Char) :
    Prop where
  listed : ∀ e ∈ m.entries, ∀ r ∈ e.2, ∃ id role, x.Reports r id role
  literal : ∀ e ∈ m.entries, ∀ r ∈ e.2, ∀ id role, x.Reports r id role →
    ∃ d, s.pair? id = some d ∧ r.Holds text (d.literal role).toList

theorem Occurrence.LiesAt.holds {o : Occurrence} {text : List Char} (lies : o.LiesAt .origin text) :
    o.range.Holds text o.literal.toList := by
  obtain ⟨before, after, rfl, start, stop⟩ := lies
  have range : o.range =
      ⟨Position.origin.advance before, Position.origin.advance (before ++ o.literal.toList)⟩ :=
    Range.ext_fields start (by rw [stop, start, Position.advance_append])
  rw [range]
  exact Range.holds_advance before o.literal.toList after

theorem Settings.Valid.holds_of_occurrence {s : Settings} (valid : s.Valid) {root : Token}
    {o : Occurrence} (membership : o ∈ (root.occurrences s.literals).occurrences) :
    ∃ d, s.pair? o.pair = some d ∧ o.range.Holds root.leafText (d.literal o.role).toList := by
  have placed := Token.placed_occurrences valid.literals_nonEmpty root
  obtain ⟨d, known, -, -, literal⟩ :=
    valid.pair_of_binding (Token.binding_mem_of_mem_occurrences membership)
  have found : o.literal = d.literal o.role := literal
  refine ⟨d, known, ?_⟩
  rw [← found]
  exact (placed.lies o membership).holds

/-- A map quotes the text when its ranges are those of a tree's occurrences that an index
classifies. -/
theorem ColorMap.quotes_of_classifies {m : ColorMap} {s : Settings} {x : PairIndex} {root : Token}
    {os : List Occurrence} (valid : s.Valid) (classifies : x.Classifies s os)
    (fromTree : ∀ o ∈ os, o ∈ (root.occurrences s.literals).occurrences)
    (ranges : (m.entries.flatMap (·.2)).Perm (os.map (·.range))) : m.Quotes s x root.leafText where
  listed e entry r painted := by
    have recorded := ranges.mem_iff.mp (List.mem_flatMap.mpr ⟨e, entry, painted⟩)
    exact PairIndex.exists_report (classifies.ranges.mem_iff.mpr recorded)
  literal e entry r painted id role reported := by
    obtain ⟨o, membership, rfl, rfl, rfl⟩ := classifies.occurrence_of_report reported
    exact valid.holds_of_occurrence (fromTree o membership)

/-- Settings with a literal of two lines. -/
def Settings.guillemets : Settings where
  mode := .consecutive
  pairs :=
    let palette : Palette := ⟨⟨"Blue"⟩, []⟩
    [⟨0, "«\n", "»", palette, ⟨"Red"⟩⟩, ⟨1, "(", ")", palette, ⟨"Red"⟩⟩]

theorem Settings.consecutive_guillemets :
    consecutive [("«\n", "»"), ("(", ")")] [⟨"Blue"⟩] ⟨"Red"⟩ = .ok guillemets := rfl

theorem Settings.valid_guillemets : guillemets.Valid := valid_consecutive consecutive_guillemets

namespace Session

variable {τ : Type} {s : Session τ}

theorem countPastEnd_eq_zero {dirty : Nat} {os : List Occurrence}
    (inside : ∀ o ∈ os, o.line < s.lineCount) : s.countPastEnd dirty os = 0 := by
  rw [countPastEnd, List.length_eq_zero_iff, List.filter_eq_nil_iff]
  intro o membership
  have below := inside o membership
  simp only [Bool.and_eq_true, decide_eq_true_eq]
  omega

theorem line_lt_of_lossless (valid : s.settings.Valid) {root : Token}
    (lossless : root.leafText = s.text.toList) {o : Occurrence}
    (membership : o ∈ (root.occurrences s.settings.literals).occurrences) :
    o.line < s.lineCount := by
  obtain ⟨d, -, holds⟩ := valid.holds_of_occurrence membership
  rw [lossless] at holds
  exact holds.start.line_lt

variable [Tokenizer τ] {dirty : Nat} {tokenizer : τ}

theorem not_logged_past_end {root : Token}
    (answer : Tokenizer.tokenize s.tokenizer s.text = (.ok root, tokenizer))
    (inside : ∀ o ∈ (root.occurrences s.settings.literals).occurrences, o.line < s.lineCount)
    (count lines : Nat) : .occurrencesPastEnd count lines ∉ (s.runPass dirty).events := by
  have none : ∀ (c : LineCache) (index : Nat),
      .occurrencesPastEnd count lines ∉ c.dropEvents index := by
    intro c index
    unfold LineCache.dropEvents
    split <;> simp
  rw [events_runPass_ok answer]
  simp [countPastEnd_eq_zero inside, none]

/-- A pass over all lines shows literals of the text, when the leaves of the tokens make it up. -/
theorem Grounded.runPass_quotes (grounded : s.Grounded) {root : Token}
    (answer : Tokenizer.tokenize s.tokenizer s.text = (.ok root, tokenizer))
    (lossless : root.leafText = s.text.toList) :
    ∃ s', (s.runPass 0).value = (.rendered s'.colors 0, s') ∧
      s'.recorded = (root.occurrences s.settings.literals).occurrences ∧
      s'.colors.Quotes s.settings s'.pairs s.text.toList := by
  have nothing : (s.keep 0).size = 0 := by
    simp [Session.keep, LineCache.truncate, LineCache.size]
  have whole := grounded.recorded_rebuild root nothing
  rw [List.filter_eq_self.mpr fun o membership =>
    decide_eq_true (line_lt_of_lossless grounded.valid lossless membership)] at whole
  have after := grounded.runPass 0
  have ran : (s.runPass 0).value = _ := runPass_ok answer
  rw [nothing] at ran
  refine ⟨(s.runPass 0).value.2, ?_⟩
  rw [ran] at after ⊢
  refine ⟨rfl, whole, ?_⟩
  rw [← lossless]
  refine ColorMap.quotes_of_classifies grounded.valid after.classifies ?_ ?_
  · intro o membership
    exact whole ▸ membership
  · rw [recorded, List.map_map]
    exact after.lists.ranges

/-- When the leaves of the tokens make up the text, a refresh drops no occurrence, and all that it
shows are literals of the text. -/
theorem refresh_quotes_text {settings : Settings} {tokenizer next : τ} {text : String}
    (valid : settings.Valid) (reached : Reaches Checked (create settings tokenizer text) s)
    {root : Token} (answer : Tokenizer.tokenize s.tokenizer s.text = (.ok root, next))
    (lossless : root.leafText = s.text.toList) :
    (∀ count lines, .occurrencesPastEnd count lines ∉ s.refresh.events) ∧
      ∃ s', s.refresh.value = (.rendered s'.colors 0, s') ∧
        s'.recorded = (root.occurrences s.settings.literals).occurrences ∧
        s'.colors.Quotes s.settings s'.pairs s.text.toList := by
  have grounded : (s.prepare .refresh).2.Grounded :=
    (Grounded.of_reaches valid reached).prepare trivial
  refine ⟨?_, grounded.runPass_quotes answer lossless⟩
  apply not_logged_past_end (s := (s.prepare .refresh).2) answer
  intro o membership
  exact line_lt_of_lossless grounded.valid lossless membership

/-- The opening literal goes over the end of a line, and a round bracket crosses the pair. -/
theorem refresh_quotes_text_crossed :
    let tokens : Token := .list [.text "f ", .node .punctuation (.text "«\n("),
      .node .string (.text ")é"), .node .punctuation (.text "»)")]
    let s : Session (Scripted fun _ => tokens) := create .guillemets ⟨[]⟩ "f «\n()é»)"
    (∀ count lines, .occurrencesPastEnd count lines ∉ s.refresh.events) ∧
      ∃ s', s.refresh.value = (.rendered s'.colors 0, s') ∧ s'.recorded.length = 4 ∧
        s'.colors.Quotes .guillemets s'.pairs "f «\n()é»)".toList := by
  intro tokens s
  have answer : Tokenizer.tokenize s.tokenizer s.text = (.ok tokens, ⟨[]⟩) := rfl
  obtain ⟨quiet, s', rendered, recorded, quotes⟩ :=
    refresh_quotes_text Settings.valid_guillemets .start answer (by decide)
  refine ⟨quiet, s', rendered, ?_, quotes⟩
  rw [recorded, Token.occurrences_eq_mapLeaves]
  rfl

end Session

end BracketColoring

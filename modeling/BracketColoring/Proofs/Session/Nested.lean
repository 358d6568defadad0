import BracketColoring.Proofs.PairIndex.Nested
import BracketColoring.Proofs.Session.Classified

/-!
# Nested pairs of a session

A pass that keeps no line matches the brackets of one tree, which lie one behind the other. So the
pair index is that of a run over all of them, whatever the session has seen before.
-/

namespace BracketColoring.Session

variable {τ : Type} {s : Session τ}

/-- The index of the cached lines is that of a run over all that they hold. -/
theorem Grounded.pairIndex_eq (grounded : s.Grounded) :
    s.cache.pairIndex s.settings = .ofAll s.settings s.recorded := by
  rcases grounded.lines with ⟨oss, equal, each⟩
  have known := LineCache.known_flatten grounded.valid each
  have all : s.recorded = oss.flatten := by
    rw [recorded, equal, LineCache.map_occurrences_ofLines known]
  rw [all, equal, LineCache.pairIndex_ofLines, PairIndex.ofAll, ← LineCache.run_ofLines]

variable [Tokenizer τ]

/-- After a pass that was rendered and kept no line, the brackets on the lines are placed in a text,
and the pair index is that of a run over them. -/
theorem placed_of_rendered {settings : Settings} {tokenizer : τ} {text : String}
    (valid : settings.Valid) (reached : Reaches Checked (create settings tokenizer text) s)
    {op : Operation} (checked : s.Checked op) {colors : ColorMap} {s' : Session τ}
    (rendered : (s.apply op).value = (some (.rendered colors 0), s')) :
    s'.pairs = .ofAll s'.settings s'.recorded ∧ (∀ o ∈ s'.recorded, s'.settings.Knows o.pair) ∧
      ∃ text, Placed .origin text s'.recorded := by
  have prepared := (Grounded.of_reaches valid reached).prepare checked
  rcases pass_of_outcome rendered with ⟨dirty, _, result⟩
  rcases tokens_of_rendered result with ⟨root, tokenizer, answer⟩
  have grounded := prepared.runPass dirty
  rw [result] at grounded
  rw [runPass_ok answer, Prod.mk.injEq, PassOutcome.rendered.injEq] at result
  rcases result with ⟨⟨_, nothing⟩, whole⟩
  have recorded := prepared.recorded_rebuild root nothing
  have placed := (Token.placed_occurrences prepared.valid.literals_nonEmpty root).filter
    fun o => o.line < (s.prepare op).2.lineCount
  rw [← recorded] at placed
  rw [← whole] at grounded ⊢
  refine ⟨grounded.pairIndex_eq, ?_, root.leafText, placed⟩
  intro o member
  have listed : o ∈ (root.occurrences (s.prepare op).2.settings.literals).occurrences.filter
      fun o => o.line < (s.prepare op).2.lineCount := by
    rw [← recorded]
    exact member
  exact grounded.valid.knows_of_occurrence (List.mem_filter.mp listed).1

/-- After a pass that was rendered and kept no line, the pairs of one stack nest. In both modes a
pair is found around each position that has one around it, no other of them lies in its span, and on
one stack it lies in the spans of all of them. -/
theorem pairs_nest {settings : Settings} {tokenizer : τ} {text : String}
    (valid : settings.Valid) (reached : Reaches Checked (create settings tokenizer text) s)
    {op : Operation} (checked : s.Checked op) {colors : ColorMap} {s' : Session τ}
    (rendered : (s.apply op).value = (some (.rendered colors 0), s')) :
    (s'.settings.mode = .consecutive → s'.pairs.Nests) ∧
    ∀ pos,
      (s'.pairs.enclosing? pos = none ↔ ∀ p ∈ s'.pairs.pairs, p.contains pos = false) ∧
      ∀ p, s'.pairs.enclosing? pos = some p → s'.pairs.Innermost pos p ∧
        (s'.settings.mode = .consecutive →
          ∀ q ∈ s'.pairs.pairs, q.contains pos = true → p.span.Within q.span) := by
  rcases placed_of_rendered valid reached checked rendered with ⟨index, known, text, placed⟩
  have increasing := PairIndex.increasing_ofAll known placed
  have filled := PairIndex.filled_ofAll known placed
  have nests := fun mode => PairIndex.nests_ofAll mode known placed
  rw [← index] at increasing filled nests
  refine ⟨nests, fun pos => ⟨increasing.enclosing?_eq_none_iff pos, ?_⟩⟩
  intro p found
  refine ⟨increasing.innermost found, ?_⟩
  intro mode q listed around
  exact increasing.within_of_nests (nests mode) filled found listed around

/-- A closing that stays alone lies between two pairs, of which the outer one goes over lines. -/
theorem pairs_nest_stray :
    let stray : Session (Scripted bare) := create .classic ⟨[]⟩ "(]\n[]\x7b\n\x7d)"
    let s' := (stray.apply .refresh).value.2
    s'.settings.mode = .consecutive ∧ s'.pairs.Nests ∧
      ∃ p, s'.pairs.enclosing? ⟨1, 3⟩ = some p ∧ p.opening.start = ⟨1, 2⟩ ∧
        s'.pairs.Innermost ⟨1, 3⟩ p := by
  intro stray s'
  have answer : Tokenizer.tokenize stray.tokenizer stray.text =
      (.ok (bare "(]\n[]\x7b\n\x7d)"), ⟨[]⟩) := rfl
  have rendered := apply_refresh_ok answer
  have shown : (stray.apply .refresh).value = (some (.rendered s'.colors 0), s') := by
    rw [rendered]
    simp only [s', rendered]
    rfl
  have checked : stray.Checked .refresh := trivial
  rcases pairs_nest Settings.valid_classic .start checked shown with ⟨nests, enclosing⟩
  have mode : s'.settings.mode = .consecutive := by decide +kernel
  have inner : (s'.pairs.enclosing? ⟨1, 3⟩).map (·.opening.start) = some ⟨1, 2⟩ := by decide +kernel
  rcases Option.map_eq_some_iff.mp inner with ⟨p, found, start⟩
  exact ⟨mode, nests mode, p, found, start, ((enclosing ⟨1, 3⟩).2 p found).1⟩

end BracketColoring.Session

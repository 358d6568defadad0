import BracketColoring.Proofs.Occurrence.Placed
import BracketColoring.Proofs.PairIndex.Classified
import BracketColoring.Proofs.Session.Operation

/-!
# The brackets of a session

Whatever tokens a tokenizer answers with, the cached lines of a session hold occurrences that some
tree has on them. The trees of different lines may differ, when lines are kept from earlier passes;
but occurrences on different lines have different places, so the lines together hold each place
once, in order, and the pair index classifies what they hold.
-/

namespace BracketColoring

/-- The occurrences are those that some tree has on the line. -/
def FromTree (t : Literals) (line : Nat) (os : List Occurrence) : Prop :=
  ∃ root : Token, os = onLine (root.occurrences t).occurrences line

namespace LineCache

variable {s : Settings} {oss : List (List Occurrence)}

theorem known_flatten (valid : s.Valid)
    (each : ∀ i os, oss[i]? = some os → FromTree s.literals i os) :
    ∀ o ∈ oss.flatten, s.Knows o.pair := by
  intro o membership
  obtain ⟨os, listed, inside⟩ := List.mem_flatten.mp membership
  obtain ⟨i, present⟩ := List.getElem?_of_mem listed
  obtain ⟨root, rfl⟩ := each i os present
  exact valid.knows_of_occurrence (mem_onLine.mp inside).1

theorem ordered_flatten (valid : s.Valid)
    (each : ∀ i os, oss[i]? = some os → FromTree s.literals i os) :
    oss.flatten.Pairwise fun o o' => o.range.start < o'.range.start := by
  rw [List.pairwise_flatten]
  constructor
  · intro os listed
    obtain ⟨i, present⟩ := List.getElem?_of_mem listed
    obtain ⟨root, rfl⟩ := each i os present
    exact (Token.placed_occurrences valid.literals_nonEmpty root).starts_increase.filter _
  · -- Two lines may come from different trees, so only their numbers tell that they are apart.
    rw [List.pairwise_iff_getElem]
    intro i j first second before o here o' there
    obtain ⟨root, equal⟩ := each i _ (List.getElem?_eq_getElem first)
    obtain ⟨root', equal'⟩ := each j _ (List.getElem?_eq_getElem second)
    rw [equal] at here
    rw [equal'] at there
    have line : o.range.start.line = i := (mem_onLine.mp here).2
    have line' : o'.range.start.line = j := (mem_onLine.mp there).2
    exact .inl (by omega)

end LineCache

namespace Session

variable {τ : Type} {s : Session τ}

/-- The occurrences that the cached lines hold. -/
def recorded (s : Session τ) : List Occurrence := s.cache.occurrences.map (·.occurrence)

/-- New settings have passed the checks. -/
def Checked (_ : Session τ) : Operation → Prop
  | .setSettings settings => settings.Valid
  | _ => True

/-- The settings have passed the checks, and every line holds what some tree has on it. -/
structure Grounded (s : Session τ) : Prop where
  valid : s.settings.Valid
  lines : s.cache.Built s.settings (FromTree s.settings.literals)

namespace Grounded

theorem create {settings : Settings} (valid : settings.Valid) (tokenizer : τ) (text : String) :
    (Session.create settings tokenizer text).Grounded :=
  ⟨valid, .forSettings settings⟩

theorem prepare (grounded : s.Grounded) {op : Operation} (checked : s.Checked op) :
    (s.prepare op).2.Grounded := by
  cases op with
  | edit line text now =>
    simp only [Session.prepare]
    split <;> exact ⟨grounded.valid, grounded.lines⟩
  | setSettings settings => exact ⟨checked, .forSettings settings⟩
  | _ => exact ⟨grounded.valid, grounded.lines⟩

theorem keep (grounded : s.Grounded) (dirty : Nat) :
    (s.keep dirty).Built s.settings (FromTree s.settings.literals) :=
  ((grounded.lines.truncate dirty).truncate s.lineCount).imp fun _ _ good => good.2.2

theorem rebuild (grounded : s.Grounded) (dirty : Nat) (root : Token) :
    (rebuild s.settings (s.keep dirty) (root.occurrences s.settings.literals).occurrences
      s.lineCount).Built s.settings (FromTree s.settings.literals) := by
  have sorted := grounded.valid.lines_increase root
  exact (grounded.keep dirty).rebuild _ s.lineCount sorted fun i _ _ => ⟨root, rfl⟩

/-- When no line is kept, rebuilding gives the lines what the tree has on the lines of the text. -/
theorem recorded_rebuild (grounded : s.Grounded) {dirty : Nat} (root : Token)
    (nothing : (s.keep dirty).size = 0) :
    (Session.rebuild s.settings (s.keep dirty) (root.occurrences s.settings.literals).occurrences
        s.lineCount).occurrences.map (·.occurrence) =
      (root.occurrences s.settings.literals).occurrences.filter fun o => o.line < s.lineCount := by
  have sorted := grounded.valid.lines_increase root
  obtain ⟨oss, equal, -⟩ := grounded.keep dirty
  rw [equal, LineCache.size_ofLines, List.length_eq_zero_iff] at nothing
  subst nothing
  have below := flatten_onLines sorted s.lineCount
  have rebuilt := LineCache.rebuild_ofLines (s := s.settings) [] _ s.lineCount sorted
  rw [List.nil_append, List.length_nil, Nat.sub_zero] at rebuilt
  rw [equal, rebuilt, LineCache.map_occurrences_ofLines, below]
  rw [below]
  intro o membership
  exact grounded.valid.knows_of_occurrence (List.mem_filter.mp membership).1

theorem classifies (grounded : s.Grounded) :
    (s.cache.pairIndex s.settings).Classifies s.settings s.recorded := by
  obtain ⟨oss, equal, each⟩ := grounded.lines
  unfold recorded
  rw [equal]
  exact LineCache.classifies (LineCache.known_flatten grounded.valid each)
    (LineCache.ordered_flatten grounded.valid each)

end Grounded

variable [Tokenizer τ]

theorem Grounded.runPass (grounded : s.Grounded) (dirty : Nat) :
    (s.runPass dirty).value.2.Grounded := by
  cases answer : Tokenizer.tokenize s.tokenizer s.text with
  | mk result tokenizer =>
    cases result with
    | error error =>
      rw [runPass_error answer]
      exact ⟨grounded.valid, grounded.keep dirty⟩
    | ok root =>
      rw [runPass_ok answer]
      exact ⟨grounded.valid, grounded.rebuild dirty root⟩

theorem Grounded.apply (grounded : s.Grounded) {op : Operation} (checked : s.Checked op) :
    (s.apply op).value.2.Grounded := by
  rw [apply_value]
  cases (s.prepare op).1 with
  | none => exact grounded.prepare checked
  | some dirty => exact (grounded.prepare checked).runPass dirty

theorem Grounded.of_reaches {settings : Settings} {tokenizer : τ} {text : String}
    (valid : settings.Valid) (reached : Reaches Checked (Session.create settings tokenizer text) s) :
    s.Grounded := by
  induction reached with
  | start => exact .create valid tokenizer text
  | step op _ checked ih => exact ih.apply checked

/-- After a pass that was rendered, the pair index lists every bracket on the lines once, matched or
alone; and when no line was kept these are the brackets of the tokens. -/
theorem rendered_classifies {settings : Settings} {tokenizer : τ} {text : String}
    (valid : settings.Valid) (reached : Reaches Checked (create settings tokenizer text) s)
    {op : Operation} (checked : s.Checked op) {colors : ColorMap} {line : Nat} {s' : Session τ}
    (rendered : (s.apply op).value = (some (.rendered colors line), s')) :
    s'.pairs.Classifies s'.settings s'.recorded ∧
      (line = 0 → ∃ root,
        Tokenizer.tokenize s.tokenizer s'.text = (.ok root, s'.tokenizer) ∧
        s'.recorded = (root.occurrences s'.settings.literals).occurrences.filter
          fun o => o.line < s'.lineCount) := by
  have prepared := (Grounded.of_reaches valid reached).prepare checked
  obtain ⟨dirty, -, result⟩ := pass_of_outcome rendered
  obtain ⟨root, tokenizer, answer⟩ := tokens_of_rendered result
  have grounded := prepared.runPass dirty
  rw [result] at grounded
  rw [runPass_ok answer] at result
  cases result
  refine ⟨grounded.classifies, ?_⟩
  intro nothing
  rw [tokenizer_prepare] at answer
  exact ⟨root, answer, prepared.recorded_rebuild root nothing⟩

theorem rendered_classifies_crossed :
    let crossed : Session (Scripted bare) := create .classic ⟨[]⟩ "([)]"
    let s' := (crossed.apply .refresh).value.2
    s'.pairs.Classifies s'.settings s'.recorded ∧
      s'.recorded = ((bare "([)]").occurrences s'.settings.literals).occurrences.filter
        fun o => o.line < s'.lineCount := by
  intro crossed s'
  have allowed : crossed.Checked .refresh := trivial
  have answer : Tokenizer.tokenize (crossed.prepare .refresh).2.tokenizer
      (crossed.prepare .refresh).2.text = (.ok (bare "([)]"), ⟨[]⟩) := rfl
  have rendered := crossed.apply_value .refresh
  have pass : (crossed.prepare .refresh).1 = some 0 := rfl
  rw [pass, runPass?, runPass_ok answer] at rendered
  obtain ⟨classified, whole⟩ :=
    rendered_classifies Settings.valid_classic .start allowed rendered
  obtain ⟨root, found, recorded⟩ := whole rfl
  have same : root = bare "([)]" := by
    cases found
    rfl
  subst same
  simp only [s', rendered]
  exact ⟨classified, recorded⟩

end Session

end BracketColoring

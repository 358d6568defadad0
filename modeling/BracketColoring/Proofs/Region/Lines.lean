import BracketColoring.Proofs.Pattern.LineBound
import BracketColoring.Proofs.Position.Text
import BracketColoring.Proofs.Region.Edits
import BracketColoring.Proofs.Region.Lossless

/-!
# Lexers that look at one line at a time

When neither regions nor punctuation can go over a line feed, the brackets of a text with a line
feed are those before it and those behind it (`tokenize_feed`). So texts that begin with the same
lines have the same brackets on them, and for edits that leave the lines above them as they are
incremental passes are exact.
-/

namespace BracketColoring

/-! ## Occurrences in some tokens -/

namespace Literals

variable {t : Literals}

/-- The occurrences in some tokens of which the first starts at `p`. -/
def occurrencesOf (t : Literals) (p : Position) (tokens : List Token) : List Occurrence :=
  (t.mapLeaves p (Token.leavesOf tokens)).occurrences

theorem flatMap_leavesOf (tokens : List Token) :
    (Token.leavesOf tokens).flatMap (·.text) = tokens.flatMap Token.leafText := by
  simpa [Token.leafText, Token.leaves] using Token.leafText_list tokens

theorem occurrencesOf_append (nonEmpty : t.NonEmpty) (p : Position) (xs ys : List Token) :
    t.occurrencesOf p (xs ++ ys) =
      t.occurrencesOf p xs ++ t.occurrencesOf (p.advance (xs.flatMap Token.leafText)) ys := by
  rw [occurrencesOf, Token.leavesOf_append, mapLeaves_append, (placed_mapLeaves nonEmpty p _).2,
    flatMap_leavesOf]
  rfl

theorem occurrencesOf_cons (nonEmpty : t.NonEmpty) (p : Position) (x : Token) (ys : List Token) :
    t.occurrencesOf p (x :: ys) =
      t.occurrencesOf p [x] ++ t.occurrencesOf (p.advance x.leafText) ys := by
  rw [← List.singleton_append, occurrencesOf_append nonEmpty, List.flatMap_singleton]

@[simp] theorem occurrencesOf_list (p : Position) (children : List Token) :
    t.occurrencesOf p [.list children] = t.occurrencesOf p children := by
  simp [occurrencesOf, Token.leavesOf, Token.leaves]

@[simp] theorem occurrencesOf_plainToken (p : Position) (text : List Char) :
    t.occurrencesOf p (Lexer.plainToken text) = [] := by
  cases text <;> rfl

theorem occurrencesOf_leaf (p : Position) (category : Category) (text : List Char) :
    t.occurrencesOf p [.leaf category text] =
      if category = .punctuation then (t.occurrencesIn p text).1 else [] := by
  cases category <;> simp [occurrencesOf, Token.leavesOf, Token.leaves, Token.leaf, mapLeaves,
    mapLeaf]

end Literals

namespace RegionLexer

open Lexer (gapTokens plainToken tokensFrom flatMap_plainToken flatMap_gapTokens)

variable {l : RegionLexer} {t : Literals}

/-- Neither punctuation nor regions can go over a line feed. -/
def LineBound (l : RegionLexer) : Prop :=
  l.punctuation.LineBound ∧ ∀ p ∈ l.regions.toList, p.LineBound

instance (l : RegionLexer) : Decidable l.LineBound := inferInstanceAs (Decidable (_ ∧ _))

/-! ## Gaps -/

theorem occurrencesOf_gapTokens (nonEmpty : t.NonEmpty) (p : Position) (found : List Match)
    (tail : List Char) :
    t.occurrencesOf p (gapTokens found tail) = t.occurrencesOf p (gapTokens found []) := by
  simp only [gapTokens, Literals.occurrencesOf_append nonEmpty, Literals.occurrencesOf_plainToken]

theorem gapTokens_append (found more : List Match) (tail : List Char) :
    gapTokens (found ++ more) tail = gapTokens found [] ++ gapTokens more tail := by
  have nothing : plainToken [] = [] := rfl
  simp only [gapTokens, List.flatMap_append, nothing, List.append_nil, List.append_assoc]

/-- More text before the first gap moves what is found behind it. -/
theorem occurrencesOf_gapTokens_behind (nonEmpty : t.NonEmpty) (p : Position)
    (before : List Char) (found : List Match) (tail : List Char) :
    t.occurrencesOf p (gapTokens (Match.behind before found tail).1
        (Match.behind before found tail).2) =
      t.occurrencesOf (p.advance before) (gapTokens found tail) := by
  cases found with
  | nil => simp [Match.behind, gapTokens]
  | cons m rest =>
    simp only [Match.behind, gapTokens, List.flatMap_cons, List.append_assoc,
      Literals.occurrencesOf_append nonEmpty, Literals.occurrencesOf_plainToken,
      flatMap_plainToken, Position.advance_append]

theorem tokenizeGap_feed (bound : l.LineBound) (nonEmpty : t.NonEmpty) (p : Position)
    (a b : List Char) :
    t.occurrencesOf p (l.tokenizeGap (a ++ '\n' :: b)) =
      t.occurrencesOf p (l.tokenizeGap a) ++
        t.occurrencesOf (p.advance (a ++ ['\n'])) (l.tokenizeGap b) := by
  have whole := l.punctuation.whole_search false a
  rw [tokenizeGap_eq, tokenizeGap_eq, tokenizeGap_eq, bound.1.search_feed]
  generalize l.punctuation.search false a = found at whole ⊢
  generalize l.punctuation.search false b = later
  rcases found with ⟨ms, tail⟩
  rcases later with ⟨ms', tail'⟩
  dsimp only at whole ⊢
  rw [gapTokens_append, Literals.occurrencesOf_append nonEmpty,
    occurrencesOf_gapTokens_behind nonEmpty, occurrencesOf_gapTokens nonEmpty p ms tail,
    flatMap_gapTokens, List.append_nil, ← Position.advance_append, ← List.append_assoc, whole]

/-! ## Regions -/

theorem flatMap_tokenizeGap (l : RegionLexer) (gap : List Char) :
    (l.tokenizeGap gap).flatMap Token.leafText = gap :=
  Lexer.flatMap_tokenizeGap Program.lawful l gap

/-- A line feed in a gap parts the brackets before it from those behind it. -/
theorem tokensFrom_feed (bound : l.LineBound) (nonEmpty : t.NonEmpty) (p : Position)
    (a gap tail : List Char) (ms : List Match) :
    t.occurrencesOf p (l.tokensFrom (a ++ '\n' :: gap) tail ms) =
      t.occurrencesOf p (l.tokenizeGap a) ++
        t.occurrencesOf (p.advance (a ++ ['\n'])) (l.tokensFrom gap tail ms) := by
  induction ms generalizing gap with
  | nil =>
    rw [tokensFrom, tokensFrom, List.append_assoc, List.cons_append]
    exact tokenizeGap_feed bound nonEmpty p a (gap ++ tail)
  | cons m ms ih =>
    have longer : a ++ '\n' :: gap ++ m.gap = a ++ '\n' :: (gap ++ m.gap) := by simp
    rw [tokensFrom, tokensFrom, longer]
    cases l.regionCategory? m with
    | none =>
      dsimp only
      rw [List.append_assoc, List.cons_append, ih]
    | some category =>
      dsimp only
      have place : p.advance (a ++ '\n' :: (gap ++ m.gap)) =
          (p.advance (a ++ ['\n'])).advance (gap ++ m.gap) := by
        rw [← Position.advance_append, ← List.append_cons]
      rw [Literals.occurrencesOf_append nonEmpty, Literals.occurrencesOf_append nonEmpty,
        tokenizeGap_feed bound nonEmpty, flatMap_tokenizeGap, flatMap_tokenizeGap, place,
        List.append_assoc]

theorem tokensFrom_behind (l : RegionLexer) (gap before tail : List Char) (ms : List Match) :
    l.tokensFrom gap (Match.behind before ms tail).2 (Match.behind before ms tail).1 =
      l.tokensFrom (gap ++ before) tail ms := by
  cases ms with
  | nil => simp only [Match.behind, tokensFrom, List.append_assoc]
  | cons m rest => simp only [Match.behind, tokensFrom, Lexer.regionCategory?, List.append_assoc]

/-- The brackets of a text with a line feed, given the matches before it and behind it. -/
theorem tokensFrom_append (bound : l.LineBound) (nonEmpty : t.NonEmpty) (p : Position)
    (gap tail tail' : List Char) (ms ms' : List Match) :
    t.occurrencesOf p (l.tokensFrom gap (Match.behind (tail ++ ['\n']) ms' tail').2
        (ms ++ (Match.behind (tail ++ ['\n']) ms' tail').1)) =
      t.occurrencesOf p (l.tokensFrom gap tail ms) ++
        t.occurrencesOf (p.advance (gap ++ Match.whole ms ++ tail ++ ['\n']))
          (l.tokensFrom [] tail' ms') := by
  induction ms generalizing p gap with
  | nil =>
    rw [List.nil_append, tokensFrom_behind, ← List.append_assoc,
      tokensFrom_feed bound nonEmpty p (gap ++ tail) [], tokensFrom, Match.whole_nil,
      List.append_nil]
  | cons m ms ih =>
    rw [List.cons_append, tokensFrom, tokensFrom]
    cases l.regionCategory? m with
    | none =>
      dsimp only
      rw [ih]
      simp only [Match.whole_cons, List.append_assoc]
    | some category =>
      dsimp only
      rw [Literals.occurrencesOf_append nonEmpty, Literals.occurrencesOf_append nonEmpty p,
        Literals.occurrencesOf_cons nonEmpty, Literals.occurrencesOf_cons nonEmpty _ _
          (l.tokensFrom [] tail ms), ih]
      simp only [flatMap_tokenizeGap, Token.leafText_leaf, ← Position.advance_append,
        Match.whole_cons, List.append_assoc, List.nil_append]

/-- The brackets of a text with a line feed are those before it and those behind it. -/
theorem tokenize_feed (bound : l.LineBound) (nonEmpty : t.NonEmpty) (p : Position)
    (a b : List Char) :
    t.occurrencesOf p [l.tokenize (a ++ '\n' :: b)] =
      t.occurrencesOf p [l.tokenize a] ++
        t.occurrencesOf (p.advance (a ++ ['\n'])) [l.tokenize b] := by
  cases present : l.regions with
  | none =>
    simp only [tokenize_of_none present, Literals.occurrencesOf_list]
    exact tokenizeGap_feed bound nonEmpty p a b
  | some regions =>
    have regionsBound : regions.LineBound := bound.2 regions (by simp [present])
    have whole := regions.whole_search true a
    simp only [tokenize_of_some present, Literals.occurrencesOf_list]
    rw [regionsBound.search_feed]
    dsimp only
    rw [tokensFrom_append bound nonEmpty, List.nil_append, whole]

/-! ## Lines -/

theorem occurrences_eq_occurrencesOf (root : Token) (t : Literals) :
    (root.occurrences t).occurrences = t.occurrencesOf .origin [root] := by
  rw [Token.occurrences_eq_mapLeaves, Literals.occurrencesOf, Token.leavesOf, Token.leavesOf,
    List.append_nil]

/-- No occurrence of some tokens lies on a line above the first of them. -/
theorem line_le_of_mem_occurrencesOf (nonEmpty : t.NonEmpty) {p : Position} {tokens : List Token}
    {o : Occurrence} (member : o ∈ t.occurrencesOf p tokens) : p.line ≤ o.line := by
  have placed := (Literals.placed_mapLeaves nonEmpty p (Token.leavesOf tokens)).1
  exact Position.line_le_of_le (placed.lies o member).le_start

/-- The brackets on the lines before a line feed are those of the text before it. -/
theorem onLine_feed (bound : l.LineBound) (nonEmpty : t.NonEmpty) {a : List Char} (b : List Char)
    {i : Nat} (above : i < (splitLines a).length) :
    onLine ((l.tokenize (a ++ '\n' :: b)).occurrences t).occurrences i =
      onLine ((l.tokenize a).occurrences t).occurrences i := by
  rw [occurrences_eq_occurrencesOf, occurrences_eq_occurrencesOf, tokenize_feed bound nonEmpty,
    onLine_append]
  have nothing : onLine (t.occurrencesOf (Position.origin.advance (a ++ ['\n'])) [l.tokenize b]) i =
      [] := by
    refine onLine_eq_nil fun o member => ?_
    have below := line_le_of_mem_occurrencesOf nonEmpty member
    rw [Position.advance_last_line _ a (by simp)] at below
    rw [length_splitLines] at above
    simp only [Position.origin] at below
    omega
  rw [nothing, List.append_nil]

end RegionLexer

/-! ## Texts that begin with the same lines -/

theorem splitLines_inj {a b : List Char} (same : splitLines a = splitLines b) : a = b := by
  have whole := flatMap_splitLines a
  rw [same, flatMap_splitLines] at whole
  exact (List.append_cancel_right whole).symm

/-- The first lines of a text are a text, and behind it there is nothing or a line feed. -/
theorem exists_first_lines {text : List Char} {count : Nat} (positive : 0 < count)
    (enough : count ≤ (splitLines text).length) :
    ∃ a, splitLines a = (splitLines text).take count ∧
      (text = a ∨ ∃ b, text = a ++ '\n' :: b) := by
  induction text generalizing count with
  | nil =>
    have one : count = 1 := Nat.le_antisymm enough positive
    subst one
    exact ⟨[], rfl, .inl rfl⟩
  | cons c rest ih =>
    by_cases broken : c = '\n'
    · subst broken
      rw [splitLines_feed] at enough ⊢
      obtain ⟨more, rfl⟩ := Nat.exists_eq_add_of_lt positive
      cases more with
      | zero => exact ⟨[], rfl, .inr ⟨rest, rfl⟩⟩
      | succ more =>
        obtain ⟨a, lines, ending⟩ := ih (Nat.succ_pos more) (by simpa using enough)
        refine ⟨'\n' :: a, ?_, ?_⟩
        · rw [splitLines_feed, lines]
          simp
        · rcases ending with rfl | ⟨b, rfl⟩
          · exact .inl rfl
          · exact .inr ⟨b, rfl⟩
    · rw [splitLines_cons broken] at enough ⊢
      obtain ⟨a, lines, ending⟩ := ih positive (by simpa using enough)
      refine ⟨c :: a, ?_, ?_⟩
      · rw [splitLines_cons broken, lines]
        cases splitLines rest with
        | nil => simp
        | cons l more =>
          obtain ⟨count, rfl⟩ := Nat.exists_eq_add_of_lt positive
          simp
      · rcases ending with rfl | ⟨b, rfl⟩
        · exact .inl rfl
        · exact .inr ⟨b, rfl⟩

namespace RegionLexer

/-- Texts that begin with the same lines have the same brackets on them. -/
def LineLocal (l : RegionLexer) : Prop :=
  ∀ settings : Settings, settings.Valid → ∀ (old new : String) (count : Nat),
    (linesOf new).take count = (linesOf old).take count →
      ∀ i < count, Session.bracketsOn l.tree settings new i = Session.bracketsOn l.tree settings old i

/-- For edits that leave the lines above them as they are, incremental passes are safe also when
there was no pass before the first of them. -/
def SafeFromStart (l : RegionLexer) : Prop :=
  ∀ settings : Settings, settings.Valid → settings.debounce = 0 → ∀ text edits,
    SameLinesAbove text edits → (Session.create settings l text).AgreesAfterEach l edits

variable {l : RegionLexer}

theorem LineBound.lineLocal (bound : l.LineBound) : l.LineLocal := by
  intro settings valid old new count same i above
  have lengths := congrArg List.length same
  rw [List.length_take, List.length_take] at lengths
  by_cases enough : count ≤ (linesOf old).length
  · -- Both texts begin with the text of these lines.
    have positive : 0 < count := Nat.lt_of_le_of_lt (Nat.zero_le i) above
    rcases exists_first_lines positive enough with ⟨a, lines, ending⟩
    have enough' : count ≤ (splitLines new.toList).length := by
      change count ≤ (linesOf new).length
      omega
    rcases exists_first_lines positive enough' with ⟨a', lines', ending'⟩
    have equal : a' = a := splitLines_inj (lines'.trans (same.trans lines.symm))
    subst equal
    have inside : i < (splitLines a').length := by
      have length : (splitLines a').length = min count (linesOf new).length := by
        rw [lines', List.length_take]
        rfl
      omega
    have brackets : ∀ text : String, (text.toList = a' ∨ ∃ b, text.toList = a' ++ '\n' :: b) →
        Session.bracketsOn l.tree settings text i =
          onLine ((l.tokenize a').occurrences settings.literals).occurrences i := by
      intro text ending
      rw [Session.bracketsOn, tree]
      rcases ending with whole | ⟨b, whole⟩
      · rw [whole]
      · rw [whole, onLine_feed bound valid.literals_nonEmpty b inside]
    rw [brackets new ending', brackets old ending]
  · -- Neither text has as many lines.
    rw [List.take_of_length_le (by omega), List.take_of_length_le (by omega)] at same
    have equal : new = old := String.toList_inj.mp (splitLines_inj same)
    rw [equal]

theorem LineLocal.allKeepBrackets (lineLocal : l.LineLocal) {settings : Settings}
    (valid : settings.Valid) {old : String} {edits : List Edit}
    (same : SameLinesAbove old edits) :
    Session.AllKeepBrackets l.tree settings old edits := by
  induction edits generalizing old with
  | nil => exact trivial
  | cons e rest ih =>
    refine ⟨?_, ih same.2⟩
    intro i above
    exact lineLocal settings valid old e.text e.line same.1 i (by omega)

theorem LineLocal.safeForSameLines (lineLocal : l.LineLocal) : l.SafeForSameLines := by
  intro settings valid immediate text edits same
  exact (Session.refreshed_agreesAfterEach_iff l.steady valid immediate text edits).mpr
    (lineLocal.allKeepBrackets valid same)

theorem LineLocal.safeFromStart (lineLocal : l.LineLocal) : l.SafeFromStart := by
  intro settings valid immediate text edits same
  exact Session.create_agreesAfterEach l.steady valid immediate text
    (lineLocal.allKeepBrackets valid same)

/-- The lexers without regions and for hash comments look at one line at a time, and with them every
incremental pass is exact. -/
theorem line_presets_exact :
    (∃ l, plain? = some l ∧ l.LineLocal ∧ l.SafeForSameLines ∧ l.SafeFromStart) ∧
      ∃ l, hashComments? = some l ∧ l.LineLocal ∧ l.SafeForSameLines ∧ l.SafeFromStart := by
  have safe : ∀ preset : Option RegionLexer, (preset.any fun l => decide l.LineBound) = true →
      ∃ l, preset = some l ∧ l.LineLocal ∧ l.SafeForSameLines ∧ l.SafeFromStart := by
    intro preset checked
    rcases (Option.any_eq_true _ _).mp checked with ⟨l, found, bound⟩
    have lineLocal := (of_decide_eq_true bound).lineLocal
    exact ⟨l, found, lineLocal, lineLocal.safeForSameLines, lineLocal.safeFromStart⟩
  constructor
  · exact safe plain? (by decide +kernel)
  · exact safe hashComments? (by decide +kernel)

/-- A string that ends nowhere, then on the line above the next edit, with an escape before the
line feed. -/
theorem line_presets_exact_unterminated :
    let edits : List Edit := [⟨1, "(#[\n\"[\\\n)", 0⟩, ⟨2, "(#[\n\"[\\\n\"]\"(])", 5⟩]
    SameLinesAbove "(#[\n\"(" edits ∧
      ∃ l, hashComments? = some l ∧
        Session.bracketsOn l.tree immediate "(#[\n\"[\\\n)" 0 =
          Session.bracketsOn l.tree immediate "(#[\n\"(" 0 ∧
        (Session.refreshed immediate l "(#[\n\"(").AgreesAfterEach l edits ∧
        (Session.create immediate l "(#[\n\"(").AgreesAfterEach l edits := by
  intro edits
  have same : SameLinesAbove "(#[\n\"(" edits := ⟨by decide, by decide, trivial⟩
  rcases line_presets_exact.2 with ⟨l, found, lineLocal, safe, start⟩
  refine ⟨same, l, found, ?_, ?_, ?_⟩
  · exact lineLocal immediate valid_immediate _ _ 1 same.1 0 Nat.zero_lt_one
  · exact safe immediate valid_immediate rfl _ edits same
  · exact start immediate valid_immediate rfl _ edits same

end RegionLexer

end BracketColoring

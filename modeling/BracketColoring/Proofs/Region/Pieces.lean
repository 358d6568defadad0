import BracketColoring.Proofs.Pattern.Spans
import BracketColoring.Region

/-!
# Tokens of a text in pieces

A lexer cuts its matches out of the text by bytes. Where they are in order the text can be taken as
the pieces between and inside of the matches, and no bytes are needed: `gapTokens` are the tokens of a
gap, and `tokensFrom` those of a text. The cuts by bytes all succeed, with the same tokens
(`gapTokensFrom?_spans`, `tokensFrom?_spans`).
-/

namespace BracketColoring.Lexer

variable {Rx : Type}

def plainToken (text : List Char) : List Token := if text.isEmpty then [] else [.plain text]

/-- The tokens of a gap, given its matches for punctuation and the text after the last. -/
def gapTokens (found : List Match) (tail : List Char) : List Token :=
  found.flatMap (fun m => plainToken m.gap ++ [.punctuation m.text]) ++ plainToken tail

theorem plainBetween?_append (before piece after : List Char) :
    plainBetween? (before ++ piece ++ after) (byteCount before)
      (byteCount before + byteCount piece) = some (plainToken piece) := by
  unfold plainBetween? plainToken
  rw [slice?_append]
  cases piece with
  | nil => simp
  | cons c rest =>
    have filled := c.utf8Size_pos
    rw [byteCount_cons, if_pos (by omega)]
    rfl

/-- `before` is the text before the first gap. -/
theorem gapTokensFrom?_spans (before : List Char) (ms : List Match) (tail : List Char) :
    gapTokensFrom? (before ++ Match.whole ms ++ tail) (byteCount before)
      (Match.spans (byteCount before) ms) = some (gapTokens ms tail) := by
  induction ms generalizing before with
  | nil =>
    have last := plainBetween?_append before tail []
    rw [List.append_nil, ← byteCount_append] at last
    simpa [gapTokensFrom?, Match.spans, gapTokens] using last
  | cons m rest ih =>
    have gap := plainBetween?_append before m.gap (m.text ++ Match.whole rest ++ tail)
    have piece := slice?_append (before ++ m.gap) m.text (Match.whole rest ++ tail)
    have later := ih (before ++ m.gap ++ m.text)
    simp only [Match.whole_cons, byteCount_append, List.append_assoc, Nat.add_assoc]
      at gap piece later ⊢
    simp [gapTokensFrom?, Match.spans, Nat.add_assoc, gap, piece, later, gapTokens]

/-- The category of the region that a match is, if it is one. -/
def regionCategory? (l : Lexer Rx) (m : Match) : Option Category :=
  if m.text.isEmpty then none else l.category? m.names

variable [PatternEngine Rx]

/-- The tokens of a gap. -/
def tokenizeGap (l : Lexer Rx) (gap : List Char) : List Token := (l.tokenizeGap? gap).getD []

/-- The tokens of a text from its region matches. `gap` is the text since the last region; empty
matches and those of no rule are added to it. -/
def tokensFrom (l : Lexer Rx) (gap : List Char) (tail : List Char) : List Match → List Token
  | [] => l.tokenizeGap (gap ++ tail)
  | m :: ms =>
    match l.regionCategory? m with
    | some category =>
      l.tokenizeGap (gap ++ m.gap) ++ .leaf category m.text :: l.tokensFrom [] tail ms
    | none => l.tokensFrom (gap ++ m.gap ++ m.text) tail ms

theorem exists_tokenizeGap? (lawful : PatternEngine.Lawful Rx) (l : Lexer Rx) (gap : List Char) :
    ∃ ms tail, gap = Match.whole ms ++ tail ∧
      Match.spans 0 ms = PatternEngine.spans l.punctuation false gap ∧
      l.tokenizeGap? gap = some (gapTokens ms tail) := by
  obtain ⟨ms, tail, rfl, same⟩ := Span.inOrder_iff.mp (lawful l.punctuation false gap)
  refine ⟨ms, tail, rfl, same, ?_⟩
  rw [tokenizeGap?, ← same]
  exact gapTokensFrom?_spans [] ms tail

theorem tokenizeGap?_eq (lawful : PatternEngine.Lawful Rx) (l : Lexer Rx) (gap : List Char) :
    l.tokenizeGap? gap = some (l.tokenizeGap gap) := by
  obtain ⟨ms, tail, -, -, tokens⟩ := l.exists_tokenizeGap? lawful gap
  rw [tokenizeGap, tokens, Option.getD_some]

/-- The text is cut behind `before`, which ends with the last region, and `gap` is what has been
passed over since. -/
theorem tokensFrom?_spans (lawful : PatternEngine.Lawful Rx) (l : Lexer Rx)
    (before gap : List Char) (ms : List Match) (tail : List Char) :
    l.tokensFrom? (before ++ gap ++ Match.whole ms ++ tail) (byteCount before)
      (Match.spans (byteCount (before ++ gap)) ms) = some (l.tokensFrom gap tail ms) := by
  induction ms generalizing before gap with
  | nil =>
    have last := slice?_append before (gap ++ tail) []
    simp only [List.append_nil, byteCount_append] at last
    simp [tokensFrom?, Match.spans, last, tokenizeGap?_eq lawful, tokensFrom]
  | cons m rest ih =>
    have category : (if byteCount (before ++ gap) + byteCount m.gap =
          byteCount (before ++ gap) + byteCount m.gap + byteCount m.text then none
        else l.category? m.names) = l.regionCategory? m := by
      simp only [Nat.left_eq_add, byteCount_eq_zero_iff, regionCategory?, List.isEmpty_iff]
    rw [Match.spans, tokensFrom?, tokensFrom]
    dsimp only
    rw [category]
    cases l.regionCategory? m with
    | none =>
      have later := ih before (gap ++ m.gap ++ m.text)
      simpa [Nat.add_assoc] using later
    | some found =>
      have passed := slice?_append before (gap ++ m.gap) (m.text ++ Match.whole rest ++ tail)
      have piece := slice?_append (before ++ gap ++ m.gap) m.text (Match.whole rest ++ tail)
      have later := ih (before ++ gap ++ m.gap ++ m.text) []
      simp only [Match.whole_cons, byteCount_append, List.append_assoc, List.append_nil,
        Nat.add_assoc] at passed piece later ⊢
      simp [passed, piece, later, tokenizeGap?_eq lawful]

/-- The tokens of a text, given its pieces. -/
theorem tokenize?_eq (lawful : PatternEngine.Lawful Rx) {l : Lexer Rx} {text tail : List Char}
    {ms : List Match} (whole : text = Match.whole ms ++ tail)
    (spans : l.regionSpans text = Match.spans 0 ms) :
    l.tokenize? text = some (.list (l.tokensFrom [] tail ms)) := by
  have tokens := l.tokensFrom?_spans lawful [] [] ms tail
  simp only [List.nil_append, byteCount_nil, ← whole] at tokens
  rw [tokenize?, spans, tokens, Option.map_some]

theorem regionSpans_inOrder (lawful : PatternEngine.Lawful Rx) (l : Lexer Rx) (text : List Char) :
    Span.InOrder text (l.regionSpans text) := by
  unfold regionSpans
  split
  · exact lawful _ _ _
  · exact ⟨nofun, .nil, nofun⟩

end BracketColoring.Lexer

namespace BracketColoring.RegionLexer

open Lexer (gapTokens)

theorem tokenizeGap_eq (l : RegionLexer) (gap : List Char) :
    l.tokenizeGap gap =
      gapTokens (l.punctuation.search false gap).1 (l.punctuation.search false gap).2 := by
  have tokens := Lexer.gapTokensFrom?_spans [] (l.punctuation.search false gap).1
    (l.punctuation.search false gap).2
  have whole := l.punctuation.whole_search false gap
  rw [List.nil_append, whole] at tokens
  exact congrArg (·.getD []) tokens

theorem tokenize_of_none {l : RegionLexer} (absent : l.regions = none) (text : List Char) :
    l.tokenize text = .list (l.tokenizeGap text) := by
  have spans : l.regionSpans text = Match.spans 0 [] := by
    rw [Lexer.regionSpans, absent]
    rfl
  rw [Lexer.tokenize, Lexer.tokenize?_eq Program.lawful (List.nil_append text).symm spans]
  rfl

/-- The tokens of a text, given what a search for its regions finds. -/
theorem tokenize_of_some {l : RegionLexer} {p : Program} (present : l.regions = some p)
    (text : List Char) :
    l.tokenize text =
      .list (l.tokensFrom [] (p.search true text).2 (p.search true text).1) := by
  have spans : l.regionSpans text = Match.spans 0 (p.search true text).1 := by
    rw [Lexer.regionSpans, present]
    rfl
  rw [Lexer.tokenize, Lexer.tokenize?_eq Program.lawful (p.whole_search true text).symm spans]
  rfl

end BracketColoring.RegionLexer

import BracketColoring.Pattern.Engine
import BracketColoring.Proofs.Pattern.Search
import BracketColoring.Proofs.Text.Bytes

/-!
# Matches by their bytes

What is relied on of an engine is that the matches it tells of come from left to right, do not
overlap, and start and stop between characters (`PatternEngine.Lawful`). Such matches are the same as
a text in pieces, of which every other one is a match (`Span.inOrder_iff`).
-/

namespace BracketColoring

/-- Matches in a text from left to right: they do not overlap, and start and stop between characters.
They may be empty. -/
structure Span.InOrder (text : List Char) (spans : List Span) : Prop where
  forward : ∀ m ∈ spans, m.start ≤ m.stop
  apart : spans.Pairwise fun m n => m.stop ≤ n.start
  boundaries : ∀ m ∈ spans, IsBoundary text m.start ∧ IsBoundary text m.stop

/-- The matches that an engine tells of are in order. -/
def PatternEngine.Lawful (Rx : Type) [PatternEngine Rx] : Prop :=
  ∀ (p : Rx) (groups : Bool) (text : List Char),
    Span.InOrder text (PatternEngine.spans p groups text)

theorem slice?_append (before piece after : List Char) :
    slice? (before ++ piece ++ after) (byteCount before) (byteCount before + byteCount piece) =
      some piece :=
  slice?_eq_some_iff.mpr ⟨before, after, rfl, rfl, rfl⟩

namespace Span

theorem le_start_of_mem_spans {pos : Nat} {ms : List Match} {s : Span}
    (member : s ∈ Match.spans pos ms) : pos ≤ s.start := by
  induction ms generalizing pos with
  | nil => cases member
  | cons m rest ih =>
    rcases List.mem_cons.mp member with rfl | later
    · exact Nat.le_add_right _ _
    · have := ih later
      omega

/-- Pieces of a text stand in order. `before` is the text before them. -/
theorem inOrder_spans (before : List Char) (ms : List Match) (tail : List Char) :
    InOrder (before ++ Match.whole ms ++ tail) (Match.spans (byteCount before) ms) := by
  induction ms generalizing before with
  | nil => exact ⟨nofun, .nil, nofun⟩
  | cons m rest ih =>
    have later := ih (before ++ m.gap ++ m.text)
    rw [byteCount_append, byteCount_append] at later
    have text : before ++ m.gap ++ m.text ++ Match.whole rest ++ tail =
        before ++ Match.whole (m :: rest) ++ tail := by simp
    rw [text] at later
    rw [Match.spans]
    constructor
    case forward =>
      exact List.forall_mem_cons.mpr ⟨Nat.le_add_right _ _, later.forward⟩
    case apart =>
      exact List.pairwise_cons.mpr ⟨fun s member => le_start_of_mem_spans member, later.apart⟩
    case boundaries =>
      refine List.forall_mem_cons.mpr ⟨⟨?_, ?_⟩, later.boundaries⟩
      · exact ⟨before ++ m.gap, m.text ++ Match.whole rest ++ tail, by simp, byteCount_append ..⟩
      · exact ⟨before ++ m.gap ++ m.text, Match.whole rest ++ tail, by simp, by simp [Nat.add_assoc]⟩

/-- Matches in order cut the text into pieces. -/
theorem exists_matches (before : List Char) {rest : List Char} {spans : List Span}
    (inOrder : InOrder (before ++ rest) spans)
    (behind : ∀ s ∈ spans, byteCount before ≤ s.start) :
    ∃ ms tail, rest = Match.whole ms ++ tail ∧ Match.spans (byteCount before) ms = spans := by
  induction spans generalizing before rest with
  | nil => exact ⟨[], rest, rfl, rfl⟩
  | cons s others ih =>
    obtain ⟨forward, forwards⟩ := List.forall_mem_cons.mp inOrder.forward
    obtain ⟨apart, aparts⟩ := List.pairwise_cons.mp inOrder.apart
    obtain ⟨⟨first, last⟩, boundaries⟩ := List.forall_mem_cons.mp inOrder.boundaries
    obtain ⟨upTo, from_, split, start⟩ := first
    obtain ⟨gap, rfl, rfl⟩ := exists_between split
      (start ▸ (List.forall_mem_cons.mp behind).1)
    obtain ⟨through, after, split', stop⟩ := last
    obtain ⟨piece, rfl, rfl⟩ := exists_between (split.symm.trans split') (by omega)
    have inOrder' : InOrder (before ++ gap ++ piece ++ after) others := by
      rw [← split']
      exact ⟨forwards, aparts, boundaries⟩
    obtain ⟨ms, tail, rfl, same⟩ := ih _ inOrder' fun m member => stop ▸ apart m member
    refine ⟨⟨gap, piece, s.names⟩ :: ms, tail, by simp, ?_⟩
    rw [byteCount_append, byteCount_append] at same stop
    rw [byteCount_append] at start
    rw [Match.spans, same, stop, start]

/-- Matches in order are pieces of a text with a gap before each. -/
theorem inOrder_iff {text : List Char} {spans : List Span} :
    InOrder text spans ↔ ∃ ms tail, text = Match.whole ms ++ tail ∧ Match.spans 0 ms = spans := by
  constructor
  · intro inOrder
    exact exists_matches [] inOrder fun s _ => Nat.zero_le _
  · rintro ⟨ms, tail, rfl, rfl⟩
    exact inOrder_spans [] ms tail

end Span

theorem Program.lawful : PatternEngine.Lawful Program := by
  intro p groups text
  exact Span.inOrder_iff.mpr ⟨_, _, (p.whole_search groups text).symm, rfl⟩

end BracketColoring

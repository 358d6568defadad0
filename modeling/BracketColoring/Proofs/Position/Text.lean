import BracketColoring.Proofs.Position.Order

/-!
# Positions in a text

A text has a position when it has the line and the line is long enough; the characters before the
position are then counted line by line. A position that is reached over the beginning of a text is
one that the text has, with that beginning before it (`Position.offset_advance`).
-/

namespace BracketColoring

/-- The lines of a text, without the line feeds between them. -/
def splitLines (text : List Char) : List (List Char) := text.splitOn '\n'

/-- The text has the line of the position, and enough characters on it. -/
def Position.In (p : Position) (text : List Char) : Prop :=
  ∃ l, (splitLines text)[p.line]? = some l ∧ p.column ≤ l.length

/-- The number of characters before a position: those of the lines above, each with its line feed,
and those on its own line. -/
def Position.offset (p : Position) (text : List Char) : Nat :=
  (((splitLines text).take p.line).flatMap (· ++ ['\n'])).length + p.column

/-- The piece of a text between the start and the end of a range. -/
def Range.piece (r : Range) (text : List Char) : List Char :=
  (text.take (r.stop.offset text)).drop (r.start.offset text)

/-- Both ends of the range are in the text, and `piece` is what stands between them. -/
structure Range.Holds (r : Range) (text piece : List Char) : Prop where
  start : r.start.In text
  stop : r.stop.In text
  piece : r.piece text = piece

theorem splitLines_append_cons (a b : List Char) :
    splitLines (a ++ '\n' :: b) = splitLines a ++ splitLines b :=
  List.splitOn_append_cons_self a b

theorem splitLines_feed (text : List Char) : splitLines ('\n' :: text) = [] :: splitLines text :=
  splitLines_append_cons [] text

theorem splitLines_cons {c : Char} (inLine : c ≠ '\n') (text : List Char) :
    splitLines (c :: text) = (splitLines text).modifyHead (c :: ·) := by
  simp [splitLines, List.splitOn_cons_eq_if_modifyHead, inLine]

/-- A text with line feeds, before and after the last one. -/
theorem exists_last_line {text : List Char} (broken : '\n' ∈ text) :
    ∃ above last, text = above ++ '\n' :: last ∧ '\n' ∉ last := by
  obtain ⟨last, above, equal, unbroken⟩ :=
    List.eq_append_cons_of_mem (List.mem_reverse.mpr broken)
  refine ⟨above.reverse, last.reverse, ?_, by simpa using unbroken⟩
  simpa using congrArg List.reverse equal

theorem length_splitLines (text : List Char) : (splitLines text).length = text.count '\n' + 1 := by
  induction text with
  | nil => rfl
  | cons c rest ih =>
    by_cases broken : c = '\n'
    · subst broken
      simp [splitLines_feed, ih]
    · rw [splitLines_cons broken, List.length_modifyHead, ih]
      simp [broken]

/-- With their line feeds, the lines make up the text. -/
theorem flatMap_splitLines (text : List Char) :
    (splitLines text).flatMap (· ++ ['\n']) = text ++ ['\n'] := by
  induction text with
  | nil => rfl
  | cons c rest ih =>
    by_cases broken : c = '\n'
    · subst broken
      simp [splitLines_feed, ih]
    · rw [splitLines_cons broken]
      cases lines : splitLines rest with
      | nil => exact absurd lines (List.splitOn_ne_nil _ _)
      | cons l more =>
        rw [lines] at ih
        simpa using ih

/-- The first line of a text is at least as long as any beginning without a line feed. -/
theorem exists_first_line {last : List Char} (unbroken : '\n' ∉ last) (after : List Char) :
    ∃ l, (splitLines (last ++ after))[0]? = some l ∧ last.length ≤ l.length := by
  induction last with
  | nil =>
    cases lines : splitLines ([] ++ after) with
    | nil => exact absurd lines (List.splitOn_ne_nil _ _)
    | cons l more => exact ⟨l, rfl, Nat.zero_le _⟩
  | cons c rest ih =>
    rw [List.mem_cons, not_or] at unbroken
    obtain ⟨inLine, unbroken⟩ := unbroken
    obtain ⟨l, first, long⟩ := ih unbroken
    refine ⟨c :: l, ?_, by simpa using long⟩
    rw [List.cons_append, splitLines_cons (Ne.symm inLine)]
    simpa [List.head?_eq_getElem?] using first

namespace Position

theorem advance_line (p : Position) {text : List Char} (unbroken : '\n' ∉ text) :
    p.advance text = ⟨p.line, p.column + text.length⟩ := by
  simp [advance, unbroken]

theorem advance_last_line (p : Position) (above : List Char) {last : List Char}
    (unbroken : '\n' ∉ last) :
    p.advance (above ++ '\n' :: last) = ⟨p.line + (above.count '\n' + 1), last.length⟩ := by
  have tail : lastLine (above ++ '\n' :: last) = last := by
    rw [List.append_cons, lastLine_append_of_not_mem unbroken]
    simp [lastLine]
  simp [advance, tail, List.count_eq_zero_of_not_mem unbroken]

theorem in_advance (before after : List Char) : (origin.advance before).In (before ++ after) := by
  by_cases broken : '\n' ∈ before
  · obtain ⟨above, last, rfl, unbroken⟩ := exists_last_line broken
    obtain ⟨l, first, long⟩ := exists_first_line unbroken after
    refine ⟨l, ?_, ?_⟩
    · rw [advance_last_line _ above unbroken, List.append_assoc, List.cons_append,
        splitLines_append_cons, List.getElem?_append_right (by simp [length_splitLines, origin])]
      simpa [length_splitLines, origin] using first
    · rw [advance_last_line _ above unbroken]
      exact long
  · obtain ⟨l, first, long⟩ := exists_first_line broken after
    rw [advance_line _ broken]
    exact ⟨l, first, by simpa [origin] using long⟩

theorem offset_advance (before after : List Char) :
    (origin.advance before).offset (before ++ after) = before.length := by
  by_cases broken : '\n' ∈ before
  · obtain ⟨above, last, rfl, unbroken⟩ := exists_last_line broken
    have length : (splitLines above).length = origin.line + (above.count '\n' + 1) := by
      simp [length_splitLines, origin]
    rw [advance_last_line _ above unbroken, List.append_assoc, List.cons_append, offset,
      splitLines_append_cons, List.take_left' length, flatMap_splitLines]
    simp
    omega
  · rw [advance_line _ broken]
    simp [offset, origin]

theorem In.line_lt {p : Position} {text : List Char} (inside : p.In text) :
    p.line < text.count '\n' + 1 := by
  obtain ⟨l, present, -⟩ := inside
  obtain ⟨counted, -⟩ := List.getElem?_eq_some_iff.mp present
  rwa [length_splitLines] at counted

end Position

theorem Range.holds_advance (before piece after : List Char) :
    (Range.mk (Position.origin.advance before) (Position.origin.advance (before ++ piece))).Holds
      (before ++ piece ++ after) piece where
  start := by
    rw [List.append_assoc]
    exact Position.in_advance before (piece ++ after)
  stop := Position.in_advance (before ++ piece) after
  piece := by
    have first : (Position.origin.advance before).offset (before ++ piece ++ after) =
        before.length := by
      rw [List.append_assoc, Position.offset_advance]
    rw [Range.piece, first, Position.offset_advance, List.take_left, List.drop_left]

end BracketColoring

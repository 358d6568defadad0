import BracketColoring.Proofs.Position.Text
import BracketColoring.Proofs.Text.Bytes

/-!
# Advancing over a text

Texts act on positions: advancing over a text is advancing over its pieces, down to its characters,
and no piece but the empty one leaves a position where it is. So of the beginnings of one text the
longer one ends at the later position, and a position tells how much of a text is before it
(`advance_acts`). `guardedAdvance` is the way over a text by bytes, which looks for the last line
feed and cuts the text behind it.
-/

namespace BracketColoring

namespace Position

/-- The byte of the last line feed of a text. -/
def lastBreak? : List Char → Option Nat
  | [] => none
  | c :: rest =>
    match lastBreak? rest with
    | some i => some (c.utf8Size + i)
    | none => if c = '\n' then some 0 else none

/-- Advances over a text; the last line is what is left behind the byte of the last line feed. -/
def guardedAdvance (p : Position) (text : List Char) : Option Position :=
  match lastBreak? text with
  | some i =>
    (dropBytes? (i + 1) text).map fun last =>
      ⟨p.line + text.count '\n', last.length⟩
  | none => some ⟨p.line, p.column + text.length⟩

theorem lastBreak?_line {text : List Char} (unbroken : '\n' ∉ text) : lastBreak? text = none := by
  induction text with
  | nil => rfl
  | cons c rest ih =>
    obtain ⟨inLine, unbroken⟩ := not_or.mp (mt List.mem_cons.mpr unbroken)
    simp [lastBreak?, ih unbroken, Ne.symm inLine]

theorem lastBreak?_last_line (above : List Char) {last : List Char} (unbroken : '\n' ∉ last) :
    lastBreak? (above ++ '\n' :: last) = some (byteCount above) := by
  induction above with
  | nil => simp [lastBreak?, lastBreak?_line unbroken]
  | cons c above ih => simp [lastBreak?, ih]

theorem guardedAdvance_eq (p : Position) (text : List Char) :
    p.guardedAdvance text = some (p.advance text) := by
  unfold guardedAdvance
  by_cases broken : '\n' ∈ text
  · obtain ⟨above, last, rfl, unbroken⟩ := exists_last_line broken
    have behind : dropBytes? (byteCount above + 1) (above ++ '\n' :: last) = some last :=
      dropBytes?_eq_some_iff.mpr ⟨above ++ ['\n'], by simp, byteCount_append ..⟩
    rw [lastBreak?_last_line above unbroken, advance_last_line p above unbroken]
    simp [behind, List.count_eq_zero_of_not_mem unbroken]
  · rw [lastBreak?_line broken, advance_line p broken]

/-! ## Beginnings of one text -/

theorem advance_eq_self_iff {p : Position} {text : List Char} : p.advance text = p ↔ text = [] := by
  constructor
  · intro still
    by_contra filled
    exact absurd still (ne_of_gt (p.lt_advance filled))
  · rintro rfl
    exact p.advance_nil

/-- A longer text that begins with another one ends at a later position. -/
theorem advance_lt_of_longer (p : Position) {before longer : List Char} (begins : before <+: longer)
    (shorter : before.length < longer.length) : p.advance before < p.advance longer := by
  obtain ⟨more, rfl⟩ := begins
  rw [advance_append]
  refine lt_advance _ ?_
  rintro rfl
  simp at shorter

/-- Beginnings of one text are in the order of their lengths. -/
theorem advance_lt_iff (p : Position) {text before before' : List Char} (begins : before <+: text)
    (begins' : before' <+: text) :
    p.advance before < p.advance before' ↔ before.length < before'.length := by
  constructor
  · intro ordered
    by_contra longer
    have back : before' <+: before :=
      List.prefix_of_prefix_length_le begins' begins (Nat.le_of_not_lt longer)
    rcases Nat.lt_or_eq_of_le back.length_le with shorter | same
    · exact lt_asymm ordered (p.advance_lt_of_longer back shorter)
    · rw [back.eq_of_length same] at ordered
      exact lt_irrefl _ ordered
  · intro shorter
    exact p.advance_lt_of_longer
      (List.prefix_of_prefix_length_le begins begins' (Nat.le_of_lt shorter)) shorter

/-- Of the beginnings of one text, each ends at a position of its own. -/
theorem advance_inj (p : Position) {text before before' : List Char} (begins : before <+: text)
    (begins' : before' <+: text) : p.advance before = p.advance before' ↔ before = before' := by
  constructor
  · intro same
    have notShorter : ¬ before.length < before'.length := fun shorter =>
      absurd same (ne_of_lt ((p.advance_lt_iff begins begins').mpr shorter))
    have notLonger : ¬ before'.length < before.length := fun longer =>
      absurd same (ne_of_gt ((p.advance_lt_iff begins' begins).mpr longer))
    have length : before.length = before'.length := by omega
    exact (List.prefix_of_prefix_length_le begins begins' (Nat.le_of_eq length)).eq_of_length length
  · rintro rfl
    rfl

/-- Advancing takes pieces and characters one after the other, the way by bytes always succeeds and
ends at the same position, and no text but the empty one leaves a position where it is; the positions
behind beginnings of one text are in the order of their lengths, and tell the beginnings apart. -/
theorem advance_acts (p : Position) (a b : List Char) :
    p.advance (a ++ b) = (p.advance a).advance b ∧
      p.advance a = a.foldl step p ∧
      p.guardedAdvance a = some (p.advance a) ∧
      p ≤ p.advance a ∧ (p.advance a = p ↔ a = []) ∧
      ∀ text before before', before <+: text → before' <+: text →
        (origin.advance before < origin.advance before' ↔ before.length < before'.length) ∧
          (origin.advance before = origin.advance before' ↔ before = before') :=
  ⟨p.advance_append a b, p.advance_eq_foldl_step a, p.guardedAdvance_eq a, p.le_advance a,
    advance_eq_self_iff, fun _ _ _ begins begins' =>
      ⟨origin.advance_lt_iff begins begins', origin.advance_inj begins begins'⟩⟩

/-- The longer beginning ends on the next line, at a smaller column. -/
theorem advance_acts_feed :
    let before := "é(".toList
    let before' := "é(\n".toList
    before <+: "é(\n)".toList ∧ before' <+: "é(\n)".toList ∧
      origin.advance before < origin.advance before' := by
  intro before before'
  have begins : before <+: "é(\n)".toList := ⟨"\n)".toList, rfl⟩
  have begins' : before' <+: "é(\n)".toList := ⟨")".toList, rfl⟩
  obtain ⟨-, -, -, -, -, order⟩ := advance_acts origin before before'
  exact ⟨begins, begins', (order _ _ _ begins begins').1.mpr (by decide)⟩

end Position

end BracketColoring

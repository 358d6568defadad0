/-!
# Positions and ranges

A position is a line and a column, both counted from zero; a column counts characters. Only a
line feed ends a line. `Position.advance` gives the position after a text by counting line feeds
and the length of the last line; `advance_eq_foldl_step` says that this is the same as moving one
character at a time.
-/

namespace BracketColoring

/-- A place between two characters of a document. -/
structure Position where
  line : Nat
  column : Nat
deriving DecidableEq, Repr, Inhabited

namespace Position

def origin : Position := ⟨0, 0⟩

instance : LT Position :=
  ⟨fun a b => a.line < b.line ∨ (a.line = b.line ∧ a.column < b.column)⟩

instance : LE Position :=
  ⟨fun a b => a.line < b.line ∨ (a.line = b.line ∧ a.column ≤ b.column)⟩

theorem lt_def {a b : Position} :
    a < b ↔ a.line < b.line ∨ (a.line = b.line ∧ a.column < b.column) := Iff.rfl

theorem le_def {a b : Position} :
    a ≤ b ↔ a.line < b.line ∨ (a.line = b.line ∧ a.column ≤ b.column) := Iff.rfl

instance (a b : Position) : Decidable (a < b) :=
  inferInstanceAs (Decidable (_ ∨ (_ ∧ _)))

instance (a b : Position) : Decidable (a ≤ b) :=
  inferInstanceAs (Decidable (_ ∨ (_ ∧ _)))

def step (p : Position) (c : Char) : Position :=
  if c = '\n' then ⟨p.line + 1, 0⟩ else ⟨p.line, p.column + 1⟩

def lastLine (text : List Char) : List Char :=
  (text.reverse.takeWhile (· ≠ '\n')).reverse

/-- The position after a text: every line feed starts a line, and the column is the length of what
follows the last one. -/
def advance (p : Position) (text : List Char) : Position :=
  if '\n' ∈ text then ⟨p.line + text.count '\n', (lastLine text).length⟩
  else ⟨p.line, p.column + text.length⟩

@[simp] theorem advance_nil (p : Position) : p.advance [] = p := by simp [advance]

theorem lastLine_append_of_mem {a b : List Char} (h : '\n' ∈ b) :
    lastLine (a ++ b) = lastLine b := by
  unfold lastLine
  rw [List.reverse_append]
  congr 1
  have h' : '\n' ∈ b.reverse := by simpa using h
  generalize b.reverse = r at h'
  induction r with
  | nil => simp at h'
  | cons c r ih =>
    by_cases hc : c = '\n'
    · simp [hc]
    · simpa [hc] using ih (List.mem_of_ne_of_mem (Ne.symm hc) h')

theorem lastLine_append_of_not_mem {a b : List Char} (h : '\n' ∉ b) :
    lastLine (a ++ b) = lastLine a ++ b := by
  have hb : ∀ c ∈ b.reverse, decide (c ≠ '\n') = true := by
    intro c hc
    simp only [decide_eq_true_eq]
    rintro rfl
    exact h (by simpa using hc)
  unfold lastLine
  rw [List.reverse_append, List.takeWhile_append_of_pos hb]
  simp

/-- Advancing over a text is advancing over its pieces in turn. -/
theorem advance_append (p : Position) (a b : List Char) :
    p.advance (a ++ b) = (p.advance a).advance b := by
  unfold advance
  by_cases hb : '\n' ∈ b
  · by_cases ha : '\n' ∈ a <;>
      simp [ha, hb, lastLine_append_of_mem hb, Nat.add_assoc, List.count_eq_zero_of_not_mem]
  · by_cases ha : '\n' ∈ a <;>
      simp [ha, hb, lastLine_append_of_not_mem hb, Nat.add_assoc, List.count_eq_zero_of_not_mem]

theorem advance_singleton (p : Position) (c : Char) : p.advance [c] = p.step c := by
  by_cases h : c = '\n'
  · subst h; simp [advance, step, lastLine]
  · simp [advance, step, h, Ne.symm h]

/-- Counting line feeds agrees with moving character by character. -/
theorem advance_eq_foldl_step (p : Position) (text : List Char) :
    p.advance text = text.foldl step p := by
  induction text generalizing p with
  | nil => simp
  | cons c r ih =>
    rw [← List.singleton_append, advance_append, advance_singleton, ih]
    rfl

end Position

/-- A half-open stretch of a document, from `start` up to and not including `stop`. -/
structure Range where
  start : Position
  stop : Position
deriving DecidableEq, Repr, Inhabited

namespace Range

/-- Ranges are ordered by their start, then by their end. -/
instance : LT Range :=
  ⟨fun a b => a.start < b.start ∨ (a.start = b.start ∧ a.stop < b.stop)⟩

instance : LE Range :=
  ⟨fun a b => a.start < b.start ∨ (a.start = b.start ∧ a.stop ≤ b.stop)⟩

theorem lt_def {a b : Range} :
    a < b ↔ a.start < b.start ∨ (a.start = b.start ∧ a.stop < b.stop) := Iff.rfl

theorem le_def {a b : Range} :
    a ≤ b ↔ a.start < b.start ∨ (a.start = b.start ∧ a.stop ≤ b.stop) := Iff.rfl

instance (a b : Range) : Decidable (a < b) :=
  inferInstanceAs (Decidable (_ ∨ (_ ∧ _)))

instance (a b : Range) : Decidable (a ≤ b) :=
  inferInstanceAs (Decidable (_ ∨ (_ ∧ _)))

/-- Whether a position lies in the range; the end does not. -/
def contains (r : Range) (p : Position) : Bool := decide (r.start ≤ p) && decide (p < r.stop)

end Range

/-- The number of lines of a text: one more than its line feeds. -/
def lineCount (text : String) : Nat := text.toList.count '\n' + 1

end BracketColoring

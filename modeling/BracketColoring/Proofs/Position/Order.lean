import BracketColoring.Position
import Mathlib.Order.Defs.LinearOrder

/-!
# Order of positions and ranges

Positions in a document and ranges are linearly ordered. Moving over a text never goes back, and
moving over a text that is not empty goes forward; so positions that are reached over longer and
longer pieces of one text come one after the other.
-/

namespace BracketColoring

namespace Position

@[ext] theorem ext_fields {p q : Position} (line : p.line = q.line) (column : p.column = q.column) :
    p = q := by
  cases p
  cases q
  simp_all

instance : LinearOrder Position where
  le_refl p := .inr ⟨rfl, Nat.le_refl _⟩
  le_trans p q r first second := by
    rw [le_def] at first second ⊢
    omega
  lt_iff_le_not_ge p q := by
    rw [lt_def, le_def, le_def]
    omega
  le_antisymm p q first second := by
    rw [le_def] at first second
    exact ext_fields (by omega) (by omega)
  le_total p q := by
    rw [le_def, le_def]
    omega
  toDecidableLE := inferInstance
  toDecidableEq := inferInstance
  toDecidableLT := inferInstance

theorem line_le_of_le {p q : Position} (ordered : p ≤ q) : p.line ≤ q.line := by
  rw [le_def] at ordered
  omega

theorem le_advance (p : Position) (text : List Char) : p ≤ p.advance text := by
  rw [le_def]
  unfold advance
  split
  · next broken =>
    have counted : 0 < text.count '\n' := List.count_pos_iff.mpr broken
    simp only
    omega
  · exact .inr ⟨rfl, Nat.le_add_right _ _⟩

theorem lt_advance (p : Position) {text : List Char} (filled : text ≠ []) :
    p < p.advance text := by
  rw [lt_def]
  unfold advance
  split
  · next broken =>
    have counted : 0 < text.count '\n' := List.count_pos_iff.mpr broken
    simp only
    omega
  · exact .inr ⟨rfl, Nat.lt_add_of_pos_right (List.length_pos_iff.mpr filled)⟩

end Position

namespace Range

@[ext] theorem ext_fields {a b : Range} (start : a.start = b.start) (stop : a.stop = b.stop) :
    a = b := by
  cases a
  cases b
  simp_all

instance : LinearOrder Range where
  le_refl a := .inr ⟨rfl, le_refl _⟩
  le_trans a b c first second := by
    rw [le_def] at first second ⊢
    rcases first with first | ⟨same, first⟩
    · rcases second with second | ⟨same', -⟩
      · exact .inl (lt_trans first second)
      · exact .inl (same' ▸ first)
    · rcases second with second | ⟨same', second⟩
      · exact .inl (same ▸ second)
      · exact .inr ⟨same.trans same', le_trans first second⟩
  lt_iff_le_not_ge a b := by
    rw [lt_def, le_def, le_def]
    constructor
    · rintro (first | ⟨same, first⟩)
      · refine ⟨.inl first, ?_⟩
        rintro (back | ⟨same, -⟩)
        · exact lt_asymm first back
        · exact absurd (same ▸ first) (lt_irrefl _)
      · refine ⟨.inr ⟨same, le_of_lt first⟩, ?_⟩
        rintro (back | ⟨-, back⟩)
        · exact absurd (same ▸ back) (lt_irrefl _)
        · exact absurd first (not_lt_of_ge back)
    · rintro ⟨first | ⟨same, first⟩, apart⟩
      · exact .inl first
      · refine .inr ⟨same, lt_of_not_ge fun back => apart (.inr ⟨same.symm, back⟩)⟩
  le_antisymm a b first second := by
    rw [le_def] at first second
    rcases first with first | ⟨same, first⟩
    · rcases second with second | ⟨same, -⟩
      · exact absurd first (lt_asymm second)
      · exact absurd (same ▸ first) (lt_irrefl _)
    · rcases second with second | ⟨-, second⟩
      · exact absurd (same ▸ second) (lt_irrefl _)
      · exact ext_fields same (le_antisymm first second)
  le_total a b := by
    rw [le_def, le_def]
    rcases lt_trichotomy a.start b.start with before | same | behind
    · exact .inl (.inl before)
    · rcases le_total a.stop b.stop with before | behind
      · exact .inl (.inr ⟨same, before⟩)
      · exact .inr (.inr ⟨same.symm, behind⟩)
    · exact .inr (.inl behind)
  toDecidableLE := inferInstance
  toDecidableEq := inferInstance
  toDecidableLT := inferInstance

theorem ne_of_start_lt {a b : Range} (before : a.start < b.start) : a ≠ b := by
  rintro rfl
  exact lt_irrefl _ before

end Range

end BracketColoring

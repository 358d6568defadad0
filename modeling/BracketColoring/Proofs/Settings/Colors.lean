import BracketColoring.Proofs.Ordered.Increasing
import BracketColoring.Settings
import Mathlib.Data.String.Basic

/-!
# The colors of settings

Colors are ordered by their names. The colors of settings are those of the palettes of their pairs
and those for lone brackets, each once and in order.
-/

namespace BracketColoring

namespace Color

instance : LE Color := ⟨fun a b => a.name ≤ b.name⟩

instance : LinearOrder Color where
  le_refl a := le_refl a.name
  le_trans a b c := le_trans (a := a.name)
  lt_iff_le_not_ge a b := lt_iff_le_not_ge (a := a.name)
  le_antisymm a b first second := by
    cases a
    cases b
    exact congrArg Color.mk (le_antisymm first second)
  le_total a b := le_total a.name b.name
  toDecidableLE a b := inferInstanceAs (Decidable (a.name ≤ b.name))
  toDecidableEq := inferInstance
  toDecidableLT := inferInstance

end Color

theorem Palette.colorAt_mem (p : Palette) (index : Nat) : p.colorAt index ∈ p.toList :=
  List.get_mem ..

theorem PairDefinition.colorAt_mem (d : PairDefinition) (index : Nat) :
    d.colorAt index ∈ d.colors :=
  List.mem_append_left _ (d.palette.colorAt_mem index)

theorem PairDefinition.orphan_mem (d : PairDefinition) : d.orphan ∈ d.colors := by
  simp [colors]

namespace Settings

variable {s : Settings} {d : PairDefinition}

theorem mem_colors {c : Color} : c ∈ s.colors ↔ ∃ d ∈ s.pairs, c ∈ d.colors := by
  simp [colors]

theorem mem_colors_of_pair? {id : PairId} (known : s.pair? id = some d) {c : Color}
    (membership : c ∈ d.colors) : c ∈ s.colors :=
  mem_colors.mpr ⟨d, List.mem_of_getElem? known, membership⟩

theorem pairwise_colors (s : Settings) : s.colors.Pairwise (· < ·) :=
  Ordered.pairwise_distinct _

end Settings

end BracketColoring

import BracketColoring.Literals

/-!
# Literals found in a text

What a scan finds are bindings of the table, and the gaps and literals it finds make up the text.
The latter needs that no literal is empty: a scan steps over a literal by its length.
-/

namespace BracketColoring.Literals

/-- What is searched of a text for one literal: the gap before it, and the literal. -/
def Found.whole (f : Found) : List Char := f.gap ++ f.binding.literal.toList

/-- Every literal has a character. -/
def NonEmpty (t : Literals) : Prop := ∀ b ∈ t.bindings, b.literal.toList ≠ []

theorem startOf?_some {t : Literals} {text : List Char} {b : Binding}
    (found : t.startOf? text = some b) :
    b ∈ t.bindings ∧ ∃ rest, text = b.literal.toList ++ rest := by
  refine ⟨List.mem_of_find?_eq_some found, ?_⟩
  have starts := List.find?_some found
  obtain ⟨rest, equal⟩ := List.isPrefixOf_iff_prefix.mp starts
  exact ⟨rest, equal.symm⟩

theorem mem_bindings_of_mem_scanFrom (t : Literals) (skip : Nat) (gap text : List Char) :
    ∀ f ∈ (t.scanFrom skip gap text).1, f.binding ∈ t.bindings := by
  fun_induction scanFrom t skip gap text with
  | case1 => simp
  | case2 gap c rest n ih => exact ih
  | case3 gap c rest b starts found tail equal ih =>
    rw [equal] at ih
    intro f membership
    rcases List.mem_cons.mp membership with rfl | later
    · exact (startOf?_some starts).1
    · exact ih f later
  | case4 gap c rest absent ih => exact ih

/-- Nothing is lost between the literals, but for what is still to be passed over. -/
theorem flatMap_scanFrom (t : Literals) (filled : t.NonEmpty) (skip : Nat) (gap text : List Char)
    (inside : skip ≤ text.length) :
    (t.scanFrom skip gap text).1.flatMap Found.whole ++ (t.scanFrom skip gap text).2 =
      gap.reverse ++ text.drop skip := by
  fun_induction scanFrom t skip gap text with
  | case1 => simp
  | case2 gap c rest n ih => simpa using ih (by simpa using inside)
  | case3 gap c rest b starts found tail equal ih =>
    obtain ⟨membership, after, whole⟩ := startOf?_some starts
    obtain ⟨first, literal, spelled⟩ := List.exists_cons_of_ne_nil (filled b membership)
    -- The first character is passed over here, the others by `skip`.
    have length : b.literal.length - 1 = literal.length := by
      rw [← String.length_toList, spelled, List.length_cons, Nat.add_sub_cancel]
    rw [spelled, List.cons_append, List.cons.injEq] at whole
    obtain ⟨rfl, rfl⟩ := whole
    rw [equal, length] at ih
    have later := ih (by simp)
    simp only [List.reverse_nil, List.nil_append, List.drop_left] at later
    simp [Found.whole, spelled, later]
  | case4 gap c rest absent ih => simpa using ih (by simp)

theorem mem_bindings_of_mem_scan (t : Literals) (text : List Char) :
    ∀ f ∈ (t.scan text).1, f.binding ∈ t.bindings :=
  t.mem_bindings_of_mem_scanFrom 0 [] text

/-- The gaps and the literals, and what follows the last one, are the text. -/
theorem flatMap_scan (t : Literals) (filled : t.NonEmpty) (text : List Char) :
    (t.scan text).1.flatMap Found.whole ++ (t.scan text).2 = text :=
  t.flatMap_scanFrom filled 0 [] text (Nat.zero_le _)

end BracketColoring.Literals

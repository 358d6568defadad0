import BracketColoring.Text.Bytes
import Mathlib.Data.List.Basic

/-!
# Bytes of a text

Places in a text are also counted in bytes. A piece can be cut out only between bytes at which a
character starts; `slice?_eq_some_iff` says when that is, and what is cut out.
-/

namespace BracketColoring

@[simp] theorem byteCount_nil : byteCount [] = 0 := rfl

@[simp] theorem byteCount_cons (c : Char) (text : List Char) :
    byteCount (c :: text) = c.utf8Size + byteCount text := rfl

@[simp] theorem byteCount_append (a b : List Char) :
    byteCount (a ++ b) = byteCount a + byteCount b := by
  induction a with
  | nil => simp
  | cons c a ih => simp [ih, Nat.add_assoc]

theorem byteCount_toList (text : String) : byteCount text.toList = text.utf8ByteSize := by
  rw [← String.ofList_toList (s := text), String.toList_ofList]
  induction text.toList with
  | nil => rfl
  | cons c rest ih =>
    rw [← List.singleton_append, String.ofList_append, String.utf8ByteSize_append,
      byteCount_append, ih]
    simp

theorem byteCount_eq_zero_iff {text : List Char} : byteCount text = 0 ↔ text = [] := by
  cases text with
  | nil => simp
  | cons c rest =>
    have := c.utf8Size_pos
    simp
    omega

theorem not_split_nil {a b : List Char} {n : Nat} : ¬ ([] = a ++ b ∧ byteCount a = n + 1) := by
  rintro ⟨whole, size⟩
  obtain ⟨rfl, -⟩ := List.append_eq_nil_iff.mp whole.symm
  cases size

/-- A text that is split behind some bytes is split behind its first character or later. -/
theorem split_cons_iff {c : Char} {text a b : List Char} {n : Nat} :
    c :: text = a ++ b ∧ byteCount a = n + 1 ↔
      c.utf8Size ≤ n + 1 ∧
        ∃ a', a = c :: a' ∧ text = a' ++ b ∧ byteCount a' = n + 1 - c.utf8Size := by
  constructor
  · rintro ⟨whole, size⟩
    cases a with
    | nil => cases size
    | cons c' a =>
      obtain ⟨rfl, rfl⟩ := List.cons.inj whole
      rw [byteCount_cons] at size
      exact ⟨by omega, a, rfl, rfl, by omega⟩
  · rintro ⟨fits, a', rfl, rfl, size⟩
    exact ⟨rfl, by rw [byteCount_cons, size, Nat.add_sub_cancel' fits]⟩

theorem dropBytes?_eq_some_iff {n : Nat} {text rest : List Char} :
    dropBytes? n text = some rest ↔ ∃ before, text = before ++ rest ∧ byteCount before = n := by
  fun_induction dropBytes? n text with
  | case1 text => simp [byteCount_eq_zero_iff]
  | case2 n =>
    constructor
    · rintro ⟨⟩
    · rintro ⟨before, split⟩
      exact absurd split not_split_nil
  | case3 n c text fits ih =>
    rw [ih]
    constructor
    · rintro ⟨before, split⟩
      exact ⟨c :: before, split_cons_iff.mpr ⟨fits, before, rfl, split⟩⟩
    · rintro ⟨_, split⟩
      obtain ⟨-, before, rfl, later⟩ := split_cons_iff.mp split
      exact ⟨before, later⟩
  | case4 n c text wide =>
    constructor
    · rintro ⟨⟩
    · rintro ⟨before, split⟩
      exact absurd (split_cons_iff.mp split).1 wide

theorem takeBytes?_eq_some_iff {n : Nat} {text piece : List Char} :
    takeBytes? n text = some piece ↔ ∃ after, text = piece ++ after ∧ byteCount piece = n := by
  fun_induction takeBytes? n text generalizing piece with
  | case1 text =>
    rw [Option.some_inj]
    constructor
    · rintro rfl
      exact ⟨text, rfl, rfl⟩
    · rintro ⟨after, -, size⟩
      exact (byteCount_eq_zero_iff.mp size).symm
  | case2 n =>
    constructor
    · rintro ⟨⟩
    · rintro ⟨after, split⟩
      exact absurd split not_split_nil
  | case3 n c text fits ih =>
    rw [Option.map_eq_some_iff]
    constructor
    · rintro ⟨piece, taken, rfl⟩
      obtain ⟨after, split⟩ := ih.mp taken
      exact ⟨after, split_cons_iff.mpr ⟨fits, piece, rfl, split⟩⟩
    · rintro ⟨after, split⟩
      obtain ⟨-, piece, rfl, later⟩ := split_cons_iff.mp split
      exact ⟨piece, ih.mpr ⟨after, later⟩, rfl⟩
  | case4 n c text wide =>
    constructor
    · rintro ⟨⟩
    · rintro ⟨after, split⟩
      exact absurd (split_cons_iff.mp split).1 wide

theorem slice?_eq_some_iff {text piece : List Char} {start stop : Nat} :
    slice? text start stop = some piece ↔
      ∃ before after, text = before ++ piece ++ after ∧ byteCount before = start ∧
        start + byteCount piece = stop := by
  unfold slice?
  split
  · next ordered =>
    simp only [Option.bind_eq_some_iff, dropBytes?_eq_some_iff,
      takeBytes?_eq_some_iff]
    constructor
    · rintro ⟨_, ⟨before, rfl, size⟩, after, rfl, size'⟩
      exact ⟨before, after, (List.append_assoc ..).symm, size, by omega⟩
    · rintro ⟨before, after, rfl, size, size'⟩
      exact ⟨piece ++ after, ⟨before, List.append_assoc .., size⟩, after, rfl, by omega⟩
  · next reversed =>
    constructor
    · rintro ⟨⟩
    · rintro ⟨before, after, -, -, size⟩
      omega

/-- The byte lies in the text or at its end, and not inside of a character. -/
def IsBoundary (text : List Char) (byte : Nat) : Prop :=
  ∃ before after, text = before ++ after ∧ byteCount before = byte

theorem isBoundary_iff {text : List Char} {byte : Nat} :
    IsBoundary text byte ↔ (dropBytes? byte text).isSome = true := by
  simp only [Option.isSome_iff_exists, dropBytes?_eq_some_iff]
  exact exists_comm

instance (text : List Char) (byte : Nat) : Decidable (IsBoundary text byte) :=
  decidable_of_iff _ isBoundary_iff.symm

theorem isBoundary_zero (text : List Char) : IsBoundary text 0 := ⟨[], text, rfl, rfl⟩

theorem isBoundary_byteCount (text : List Char) : IsBoundary text (byteCount text) :=
  ⟨text, [], (List.append_nil text).symm, rfl⟩

/-- Of two ways to split a text, the one with fewer bytes before it comes first. -/
theorem exists_between {a b c d : List Char} (same : a ++ b = c ++ d)
    (ordered : byteCount a ≤ byteCount c) : ∃ between, c = a ++ between ∧ b = between ++ d := by
  rcases List.append_eq_append_iff.mp same with between | ⟨excess, rfl, rfl⟩
  · exact between
  · rw [byteCount_append] at ordered
    have nothing : excess = [] := byteCount_eq_zero_iff.mp (by omega)
    subst nothing
    exact ⟨[], by simp, by simp⟩

theorem eq_of_byteCount_eq {a b c d : List Char} (same : a ++ b = c ++ d)
    (size : byteCount a = byteCount c) : a = c ∧ b = d := by
  obtain ⟨between, whole, rest⟩ := exists_between same (Nat.le_of_eq size)
  have nothing : between = [] := by
    rw [whole, byteCount_append] at size
    exact byteCount_eq_zero_iff.mp (by omega)
  subst nothing
  exact ⟨by simpa using whole.symm, rest⟩

theorem exists_slice?_iff {text : List Char} {start stop : Nat} :
    (∃ piece, slice? text start stop = some piece) ↔
      start ≤ stop ∧ IsBoundary text start ∧ IsBoundary text stop := by
  simp only [slice?_eq_some_iff]
  constructor
  · rintro ⟨piece, before, after, rfl, rfl, size⟩
    refine ⟨by omega, ⟨before, piece ++ after, List.append_assoc .., rfl⟩, ?_⟩
    exact ⟨before ++ piece, after, rfl, by rw [byteCount_append, size]⟩
  · rintro ⟨ordered, ⟨before, rest, rfl, rfl⟩, upTo, after, same, rfl⟩
    obtain ⟨piece, rfl, rfl⟩ := exists_between same ordered
    exact ⟨piece, before, after, same, rfl, (byteCount_append ..).symm⟩

end BracketColoring

import BracketColoring.Proofs.Pattern.Preferred

/-!
# Searching in one pass

A search for matches that have characters goes over a text once: where a match begins it is taken,
and otherwise one character is passed over (`OnePass`). This holds of every acyclic program, since its
search finds the first place where a match begins (`Acyclic.onePass_search`).
-/

namespace BracketColoring

open Program (leftmost)

/-- One pass over a text, given how matches begin. `gap` is the text since the last match. -/
inductive OnePass (lead? : List Char → Option Ending) :
    List Char → List Char → List Match → List Char → Prop
  | stop {gap : List Char} : OnePass lead? gap [] [] gap
  | pass {gap rest tail : List Char} {c : Char} {ms : List Match}
      (ordinary : lead? (c :: rest) = none) (later : OnePass lead? (gap ++ [c]) rest ms tail) :
      OnePass lead? gap (c :: rest) ms tail
  | found {gap piece rest tail : List Char} {names : List String} {ms : List Match}
      (begins : lead? (piece ++ rest) = some ⟨names, rest⟩) (filled : piece ≠ [])
      (later : OnePass lead? [] rest ms tail) :
      OnePass lead? gap (piece ++ rest) (⟨gap, piece, names⟩ :: ms) tail

/-- A match has a character, and is followed by the rest of the text. -/
def Filled (lead? : List Char → Option Ending) : Prop :=
  ∀ text e, lead? text = some e → ∃ piece, piece ≠ [] ∧ text = piece ++ e.rest

variable {lead? : List Char → Option Ending} {gap text tail : List Char} {ms : List Match}

namespace OnePass

theorem of_leftmost_eq_none (nowhere : leftmost lead? text = none) (gap : List Char) :
    OnePass lead? gap text [] (gap ++ text) := by
  induction text generalizing gap with
  | nil =>
    rw [List.append_nil]
    exact .stop
  | cons c rest ih =>
    rw [leftmost] at nowhere
    split at nowhere
    · cases nowhere
    · next ordinary =>
      have later := ih (Option.map_eq_none_iff.mp nowhere) (gap ++ [c])
      rw [List.append_assoc, List.singleton_append] at later
      exact .pass ordinary later

/-- A match that begins at a text is taken. -/
theorem of_lead (filled : Filled lead?) {e : Ending} (begins : lead? text = some e)
    (later : OnePass lead? [] (text.drop (text.length - e.rest.length)) ms tail) (gap : List Char) :
    OnePass lead? gap text
      (⟨gap, text.take (text.length - e.rest.length), e.names⟩ :: ms) tail := by
  obtain ⟨piece, nonempty, rfl⟩ := filled text e begins
  have length : (piece ++ e.rest).length - e.rest.length = piece.length := by simp
  rw [length, List.drop_left] at later
  rw [length, List.take_left]
  exact .found begins nonempty later

/-- The first match of a text is taken where it begins. -/
theorem of_leftmost_eq_some (filled : Filled lead?) {h : Hit} (first : leftmost lead? text = some h)
    (later : OnePass lead? [] ((text.drop h.start).drop h.length) ms tail) (gap : List Char) :
    OnePass lead? gap text
      (⟨gap ++ text.take h.start, (text.drop h.start).take h.length, h.names⟩ :: ms) tail := by
  induction text generalizing gap h with
  | nil =>
    obtain ⟨e, begins, -⟩ := Option.map_eq_some_iff.mp first
    obtain ⟨piece, nonempty, split⟩ := filled [] e begins
    exact absurd (List.append_eq_nil_iff.mp split.symm).1 nonempty
  | cons c rest ih =>
    rw [leftmost] at first
    split at first
    · next e begins =>
      cases first
      rw [List.take_zero, List.append_nil]
      exact of_lead filled begins later gap
    · next ordinary =>
      obtain ⟨h', next, rfl⟩ := Option.map_eq_some_iff.mp first
      have passed := ih next later (gap ++ [c])
      rw [List.append_assoc, List.singleton_append] at passed
      exact .pass ordinary passed

end OnePass

theorem length_pos_of_leftmost (filled : Filled lead?) {h : Hit}
    (first : leftmost lead? text = some h) : 0 < h.length := by
  induction text generalizing h with
  | nil =>
    obtain ⟨e, begins, -⟩ := Option.map_eq_some_iff.mp first
    obtain ⟨piece, nonempty, split⟩ := filled [] e begins
    exact absurd (List.append_eq_nil_iff.mp split.symm).1 nonempty
  | cons c rest ih =>
    rw [leftmost] at first
    split at first
    · next e begins =>
      cases first
      obtain ⟨piece, nonempty, split⟩ := filled _ e begins
      have positive := List.length_pos_iff.mpr nonempty
      simp only [split, List.length_append]
      omega
    · obtain ⟨h', next, rfl⟩ := Option.map_eq_some_iff.mp first
      exact ih (h := h') next

/-- Matches that have characters are all taken, whatever was found before. -/
theorem Finder.Finds.onePass {find : Finder} (finds : find = fun _ text => leftmost lead? text)
    (filled : Filled lead?) {touching : Bool} {before : Option Char}
    (found : find.Finds touching before text ms tail) : OnePass lead? [] text ms tail := by
  have next?_eq : ∀ touching before text, find.next? touching before text = leftmost lead? text := by
    intro touching before text
    subst finds
    unfold next?
    dsimp only
    cases first : leftmost lead? text with
    | none => rfl
    | some h =>
      have positive := Nat.pos_iff_ne_zero.mp (length_pos_of_leftmost filled first)
      simp only [beq_eq_false_iff_ne.mpr positive, Bool.and_false, Bool.false_eq_true, if_false]
  induction found with
  | @nothing _ _ text next =>
    rw [next?_eq] at next
    exact .of_leftmost_eq_none next []
  | found next _ ih =>
    rw [next?_eq] at next
    exact .of_leftmost_eq_some filled next ih []

/-- The search of an acyclic program takes its matches in one pass, if they have characters. -/
theorem Program.Acyclic.onePass_search {p : Program} (acyclic : p.Acyclic)
    (filled : Filled p.lead?) (groups : Bool) (text : List Char) :
    OnePass p.lead? [] text (p.search groups text).1 (p.search groups text).2 :=
  (p.finds_search groups text).onePass (acyclic.finder_eq groups) filled

end BracketColoring

import BracketColoring.Proofs.Literals.Longest
import BracketColoring.Proofs.Occurrence.Placed
import Mathlib.Data.List.Find

/-!
# One scan of a text

What a leftmost-longest search of a text says about brackets is `Scans`: each literal stands at its
place, for the first pair that has it. The table's search is this scan (`scans_iff`). A character
that no literal has parts it: no literal starts at it or goes over it, so the text before it and the
text behind it can be scanned on their own (`Lacks.occurrencesIn_append`).
-/

namespace BracketColoring.Literals

/-- The literals of a search as occurrences in a text that starts at `p`. -/
inductive Yields (pairs : List PairDefinition) :
    Position → List (List Char × String) → List Occurrence → Prop
  | nil {p : Position} : Yields pairs p [] []
  | cons {p : Position} {gap : List Char} {literal : String} {pair : PairId} {role : Role}
      {found : List (List Char × String)} {os : List Occurrence}
      (use : firstUse? pairs literal = some (pair, role))
      (later : Yields pairs ((p.advance gap).advance literal.toList) found os) :
      Yields pairs p ((gap, literal) :: found)
        (⟨⟨p.advance gap, (p.advance gap).advance literal.toList⟩, literal, pair, role⟩ :: os)

/-- The occurrences that one leftmost-longest scan finds in a text that starts at `p`. -/
def Scans (pairs : List PairDefinition) (p : Position) (text : List Char)
    (os : List Occurrence) : Prop :=
  ∃ found tail, Search (literalsOf pairs) (LongestOf (literalsOf pairs)) text found tail ∧
    Yields pairs p found os

theorem yields_iff {pairs : List PairDefinition} {found : List Found}
    (resolved : ∀ f ∈ found,
      firstUse? pairs f.binding.literal = some (f.binding.pair, f.binding.role))
    {p : Position} {os : List Occurrence} :
    Yields pairs p (found.map Found.entry) os ↔ os = (locate p found).1 := by
  induction found generalizing p os with
  | nil =>
    constructor
    · rintro ⟨⟩
      rfl
    · rintro rfl
      exact .nil
  | cons f rest ih =>
    obtain ⟨here, others⟩ := List.forall_mem_cons.mp resolved
    constructor
    · rintro ⟨⟩
      next use later =>
      obtain ⟨rfl, rfl⟩ := Prod.mk.inj (Option.some.inj (here.symm.trans use))
      rw [(ih others).mp later]
      rfl
    · rintro rfl
      exact .cons here ((ih others).mpr rfl)

/-- The table's search of a text is its scan. -/
theorem scans_iff {pairs : List PairDefinition} (filled : (ofPairs pairs).NonEmpty) {p : Position}
    {text : List Char} {os : List Occurrence} :
    Scans pairs p text os ↔ os = ((ofPairs pairs).occurrencesIn p text).1 := by
  have resolved : ∀ f ∈ ((ofPairs pairs).scan text).1,
      firstUse? pairs f.binding.literal = some (f.binding.pair, f.binding.role) := by
    intro f member
    rw [← resolve?_ofPairs]
    exact (distinct_ofPairs pairs).resolve? (mem_bindings_of_mem_scan _ text f member)
  unfold Scans
  simp only [← search_firstOf_iff_longestOf, search_firstOf_iff filled]
  constructor
  · rintro ⟨found, tail, ⟨rfl, -⟩, yields⟩
    exact (yields_iff resolved).mp yields
  · intro same
    exact ⟨_, _, ⟨rfl, rfl⟩, (yields_iff resolved).mpr same⟩

theorem Scans.unique {pairs : List PairDefinition} (filled : (ofPairs pairs).NonEmpty)
    {p : Position} {text : List Char} {os os' : List Occurrence} (first : Scans pairs p text os)
    (second : Scans pairs p text os') : os = os' :=
  ((scans_iff filled).mp first).trans ((scans_iff filled).mp second).symm

/-! ## Texts with a character that no literal has -/

variable {t : Literals} {c : Char}

/-- No literal has the character. -/
def Lacks (t : Literals) (c : Char) : Prop := ∀ b ∈ t.bindings, c ∉ b.literal.toList

theorem locate_append (p : Position) (found more : List Found) :
    locate p (found ++ more) =
      ((locate p found).1 ++ (locate (locate p found).2 more).1,
        (locate (locate p found).2 more).2) := by
  induction found generalizing p with
  | nil => rfl
  | cons f rest ih => simp only [List.cons_append, locate, ih]

/-- Characters before the first gap move what is found behind them. -/
theorem locate_scanFrom (t : Literals) (p : Position) (before : List Char) (skip : Nat)
    (gap text : List Char) :
    (locate p (t.scanFrom skip (gap ++ before.reverse) text).1).1 =
      (locate (p.advance before) (t.scanFrom skip gap text).1).1 := by
  fun_induction scanFrom t skip gap text with
  | case1 => rw [scanFrom]; rfl
  | case2 gap c rest n ih => rw [scanFrom]; exact ih
  | case3 gap c rest b starts found tail equal ih =>
    rw [scanFrom, starts]
    dsimp only
    rw [equal, locate, locate, List.reverse_append, List.reverse_reverse, Position.advance_append]
  | case4 gap c rest absent ih =>
    rw [scanFrom, absent]
    exact ih

namespace Lacks

/-- No literal goes over the character. -/
theorem startOf?_append (lacks : t.Lacks c) (a rest : List Char) :
    t.startOf? (a ++ c :: rest) = t.startOf? a := by
  refine List.find?_congr fun b listed => ?_
  rw [Bool.eq_iff_iff, List.isPrefixOf_iff_prefix, List.isPrefixOf_iff_prefix]
  constructor
  · intro starts
    rcases List.prefix_or_prefix_of_prefix starts (List.prefix_append a (c :: rest)) with
      inside | ⟨more, longer⟩
    · exact inside
    · rw [← longer, List.prefix_append_right_inj] at starts
      cases more with
      | nil => exact ⟨[], by rw [← longer, List.append_nil, List.append_nil]⟩
      | cons d more =>
        obtain ⟨rfl, -⟩ := List.cons_prefix_cons.mp starts
        refine absurd ?_ (lacks b listed)
        rw [← longer]
        exact List.mem_append_right a List.mem_cons_self
  · intro starts
    exact starts.trans (List.prefix_append a (c :: rest))

theorem startOf?_cons (lacks : t.Lacks c) (nonEmpty : t.NonEmpty) (rest : List Char) :
    t.startOf? (c :: rest) = none := by
  refine List.find?_eq_none.mpr fun b listed starts => ?_
  obtain ⟨d, literal, spelled⟩ := List.exists_cons_of_ne_nil (nonEmpty b listed)
  rw [List.isPrefixOf_iff_prefix, spelled] at starts
  obtain ⟨rfl, -⟩ := List.cons_prefix_cons.mp starts
  refine lacks b listed ?_
  rw [spelled]
  exact List.mem_cons_self

/-- A search comes to the character with the gap that it has behind the last literal. -/
theorem scanFrom_append (lacks : t.Lacks c) (nonEmpty : t.NonEmpty) (skip : Nat)
    (gap a rest : List Char) (inside : skip ≤ a.length) :
    t.scanFrom skip gap (a ++ c :: rest) =
      let (found, tail) := t.scanFrom skip gap a
      let (more, tail) := t.scanFrom 0 (c :: tail.reverse) rest
      (found ++ more, tail) := by
  fun_induction scanFrom t skip gap a with
  | case1 skip gap =>
    obtain rfl := Nat.le_zero.mp inside
    rw [List.nil_append, scanFrom, lacks.startOf?_cons nonEmpty]
    dsimp only
    rw [List.reverse_reverse]
    rfl
  | case2 gap d a n ih =>
    rw [List.cons_append, scanFrom]
    exact ih (Nat.le_of_succ_le_succ inside)
  | case3 gap d a b starts found tail equal ih =>
    obtain ⟨listed, after, whole⟩ := startOf?_some starts
    have shorter : b.literal.length - 1 ≤ a.length := by
      have length := congrArg List.length whole
      rw [List.length_cons, List.length_append, String.length_toList] at length
      omega
    have continued := ih shorter
    rw [equal] at continued
    rw [← lacks.startOf?_append _ rest, List.cons_append] at starts
    rw [List.cons_append, scanFrom, starts]
    dsimp only
    rw [continued]
    rfl
  | case4 gap d a absent ih =>
    rw [← lacks.startOf?_append _ rest, List.cons_append] at absent
    rw [List.cons_append, scanFrom, absent]
    exact ih (Nat.zero_le _)

/-- The character parts the occurrences before it from those behind it. -/
theorem occurrencesIn_append (lacks : t.Lacks c) (nonEmpty : t.NonEmpty) (p : Position)
    (a rest : List Char) :
    (t.occurrencesIn p (a ++ c :: rest)).1 =
      (t.occurrencesIn p a).1 ++ (t.occurrencesIn (p.advance (a ++ [c])) rest).1 := by
  have reached : (locate p (t.scan a).1).2.advance (t.scan a).2 = p.advance a :=
    (placed_occurrencesIn nonEmpty p a).2
  have whole : t.scan (a ++ c :: rest) = _ :=
    lacks.scanFrom_append nonEmpty 0 [] a rest (Nat.zero_le _)
  have behind := locate_scanFrom t (locate p (t.scan a).1).2 ((t.scan a).2 ++ [c]) 0 [] rest
  rw [Position.advance_append, reached, ← Position.advance_append, List.nil_append,
    List.reverse_append, List.reverse_singleton, List.singleton_append] at behind
  unfold occurrencesIn
  rw [whole]
  dsimp only
  rw [locate_append]
  exact congrArg ((locate p (t.scan a).1).1 ++ ·) behind

end Lacks

/-- A text that is followed by nothing, or by a character that no literal has, can be scanned on its
own. -/
theorem occurrencesIn_append (nonEmpty : t.NonEmpty) (p : Position) (a : List Char)
    {rest : List Char} (ends : ∀ c ∈ rest.head?, t.Lacks c) :
    (t.occurrencesIn p (a ++ rest)).1 =
      (t.occurrencesIn p a).1 ++ (t.occurrencesIn (p.advance a) rest).1 := by
  cases rest with
  | nil =>
    rw [List.append_nil]
    exact (List.append_nil _).symm
  | cons c rest =>
    have lacks := ends c rfl
    have alone := lacks.occurrencesIn_append nonEmpty (p.advance a) [] rest
    rw [List.nil_append, List.nil_append, ← Position.advance_append] at alone
    rw [lacks.occurrencesIn_append nonEmpty, alone]
    rfl

end BracketColoring.Literals

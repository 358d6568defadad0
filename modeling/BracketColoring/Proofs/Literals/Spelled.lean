import BracketColoring.Proofs.Literals.Searched
import BracketColoring.Proofs.Ordered.Sort
import BracketColoring.Proofs.Text.ByteOrder
import Mathlib.Data.List.Dedup
import Mathlib.Data.List.Sort

/-!
# The literals that a pattern spells

A pattern is read back by splitting it at the bars that are not escaped and leaving out the
backslashes that escape. This gives the literals that the pattern was made of, whatever characters
they have. Of some literals there is only one list that has each of them once and in the order of
their ranks: a table has it whatever pairs the literals come from, and sorting them gives it
whatever order they come in.
-/

namespace BracketColoring.Literals

/-- The characters of a pattern, each with whether it is escaped. A backslash escapes the character
behind it and is left out. -/
def marked : List Char → List (Char × Bool)
  | [] => []
  | '\\' :: c :: rest => (c, true) :: marked rest
  | c :: rest => (c, false) :: marked rest

/-- The texts between the bars of a pattern that are not escaped, without the backslashes that
escape. -/
def spelled (pattern : String) : List String :=
  ((marked pattern.toList).splitOn ('|', false)).map fun piece => String.ofList (piece.map Prod.fst)

/-- A list has each of some literals once: those with more bytes first, and of two with as many the
one with the smaller bytes. -/
structure Ranks (literals ranked : List String) : Prop where
  once : ranked.Nodup
  all : ∀ l, l ∈ ranked ↔ l ∈ literals
  ordered : ranked.Pairwise fun a b =>
    (bytes b).length < (bytes a).length ∨
      (bytes a).length = (bytes b).length ∧ bytes a < bytes b

/-! ## Reading a pattern back -/

/-- A character of a literal, with whether it is escaped in a pattern. -/
def mark (c : Char) : Char × Bool := (c, metaCharacters.contains c)

theorem marked_cons {c : Char} (plain : c ≠ '\\') (rest : List Char) :
    marked (c :: rest) = (c, false) :: marked rest := by
  simp [marked, plain]

theorem marked_escape_append (text rest : List Char) :
    marked (escape text ++ rest) = text.map mark ++ marked rest := by
  induction text with
  | nil => rfl
  | cons c text ih =>
    rw [escape, List.flatMap_cons, List.append_assoc, List.map_cons, List.cons_append, ← ih]
    by_cases special : metaCharacters.contains c
    · rw [if_pos special, mark, special]
      rfl
    · -- The backslash is special itself: what is written as it is cannot start an escape.
      have plain : c ≠ '\\' := by
        rintro rfl
        exact special (by decide)
      rw [if_neg special, mark, Bool.eq_false_iff.mpr special]
      exact marked_cons plain _

theorem marked_escape (text : List Char) : marked (escape text) = text.map mark := by
  simpa [marked] using marked_escape_append text []

theorem marked_intercalate (texts : List (List Char)) :
    marked (['|'].intercalate (texts.map escape)) =
      [('|', false)].intercalate (texts.map (·.map mark)) := by
  induction texts with
  | nil => rfl
  | cons text others ih =>
    cases others with
    | nil => simpa using marked_escape text
    | cons next others =>
      simp only [List.map_cons, List.intercalate_cons_cons] at ih ⊢
      rw [List.append_assoc, marked_escape_append, List.append_assoc]
      exact congrArg (text.map mark ++ ('|', false) :: ·) ih

/-- No character of a literal is read as a bar between two literals. -/
theorem bar_not_mem_mark (text : List Char) : ('|', false) ∉ text.map mark := by
  intro member
  rcases List.mem_map.mp member with ⟨c, _, same⟩
  rcases Prod.mk.inj same with ⟨rfl, plain⟩
  exact absurd plain (by decide)

theorem spelled_pattern {t : Literals} (filled : t.alternatives ≠ []) :
    spelled t.pattern = t.alternatives := by
  have texts : t.pattern.toList =
      ['|'].intercalate ((t.alternatives.map String.toList).map escape) := by
    rw [pattern_eq, alternation, String.toList_intercalate, List.map_map, List.map_map]
    simp [Function.comp_def]
  have apart : ∀ piece ∈ (t.alternatives.map String.toList).map (·.map mark),
      ('|', false) ∉ piece := by
    intro piece member
    rcases List.mem_map.mp member with ⟨text, _, rfl⟩
    exact bar_not_mem_mark text
  have present : (t.alternatives.map String.toList).map (·.map mark) ≠ [] := by
    simpa using filled
  rw [spelled, texts, marked_intercalate, List.splitOn_intercalate _ apart present]
  simp [Function.comp_def, mark]

/-! ## The order of the literals -/

theorem rank_lt_iff_bytes {a b : String} :
    rank a < rank b ↔
      (bytes b).length < (bytes a).length ∨
        (bytes a).length = (bytes b).length ∧ bytes a < bytes b := by
  rw [rank_lt_rank, bytes_lt_bytes, length_bytes, length_bytes]

namespace Ranks

variable {literals literals' ranked ranked' : List String}

theorem of_increasing (increasing : (ranked.map rank).Pairwise (· < ·))
    (all : ∀ l, l ∈ ranked ↔ l ∈ literals) : Ranks literals ranked := by
  have ordered := List.pairwise_map.mp increasing
  refine ⟨?_, all, ordered.imp rank_lt_iff_bytes.mp⟩
  exact ordered.imp fun before same => before.ne (congrArg rank same)

theorem increasing (ranks : Ranks literals ranked) : (ranked.map rank).Pairwise (· < ·) :=
  List.pairwise_map.mpr (ranks.ordered.imp rank_lt_iff_bytes.mpr)

/-- The same literals are ranked in one way only. -/
theorem unique (ranks : Ranks literals ranked) (ranks' : Ranks literals' ranked')
    (same : ∀ l, l ∈ literals' ↔ l ∈ literals) : ranked' = ranked := by
  apply List.map_injective_iff.mpr rank_injective
  apply ranks'.increasing.eq_of_mem_iff ranks.increasing
  intro r
  simp only [List.mem_map, ranks.all, ranks'.all, same]

theorem length_eq (ranks : Ranks literals ranked) : ranked.length = literals.dedup.length := by
  apply List.Perm.length_eq
  apply (List.perm_ext_iff_of_nodup ranks.once literals.nodup_dedup).mpr
  intro l
  rw [ranks.all, List.mem_dedup]

end Ranks

theorem ranks_alternatives (pairs : List PairDefinition) :
    Ranks (literalsOf pairs) (ofPairs pairs).alternatives := by
  refine .of_increasing ?_ fun l => mem_alternatives_ofPairs
  rw [alternatives, List.map_map]
  exact List.pairwise_map.mpr (sorted_ofPairs pairs)

/-- Sorting ranks literals, in whatever order they come. -/
theorem ranks_sort {literals keys : List String} (once : keys.Nodup)
    (all : ∀ l, l ∈ keys ↔ l ∈ literals) :
    Ranks literals (Ordered.sort (fun a b => !precedes b a) keys) := by
  have order : (fun a b => !precedes b a) = fun a b => decide (rank a ≤ rank b) := by
    funext a b
    rw [Bool.eq_iff_iff, Bool.not_eq_true', decide_eq_true_iff, ← not_lt, ← precedes_iff,
      Bool.not_eq_true]
  have perm := Ordered.sort_perm (fun a b => decide (rank a ≤ rank b)) keys
  rw [order]
  refine .of_increasing (List.pairwise_map.mpr ?_) fun l => perm.mem_iff.trans (all l)
  apply (Ordered.pairwise_sort_key rank keys).imp₂ _ (perm.nodup_iff.mpr once)
  intro a b ordered apart
  exact lt_of_le_of_ne ordered (rank_injective.ne apart)

/-- The pattern of some pairs spells their literals, each of them once and in the order of their
ranks, and the table has as many. It depends on nothing but the set of the literals: other pairs
that have the same literals have the same pattern, and sorting the literals gives what it spells, in
whatever order they come. -/
theorem pattern_spells_literals (pairs : List PairDefinition) (filled : pairs ≠ []) :
    let t := ofPairs pairs
    Ranks (literalsOf pairs) (spelled t.pattern) ∧
    t.size = (literalsOf pairs).dedup.length ∧
    (∀ pairs', (∀ l, l ∈ literalsOf pairs' ↔ l ∈ literalsOf pairs) →
      (ofPairs pairs').pattern = t.pattern) ∧
    (∀ keys : List String, keys.Nodup → (∀ l, l ∈ keys ↔ l ∈ literalsOf pairs) →
      Ordered.sort (fun a b => !precedes b a) keys = spelled t.pattern) := by
  intro t
  have ranks : Ranks (literalsOf pairs) t.alternatives := ranks_alternatives pairs
  rw [spelled_pattern (alternatives_ne_nil filled)]
  refine ⟨ranks, ?size, ?pattern, ?sorted⟩
  case size =>
    rw [← ranks.length_eq, alternatives, List.length_map]
    rfl
  case pattern =>
    intro pairs' same
    rw [pattern_eq, pattern_eq t, ranks.unique (ranks_alternatives pairs') same]
  case sorted =>
    intro keys once all
    exact ranks.unique (ranks_sort once all) fun l => Iff.rfl

/-- Bars and backslashes are escaped. Two bars have as many bytes as a guillemet, and smaller ones.
Other pairs with the same literals have the same pattern. -/
theorem pattern_spells_literals_barred :
    let pairs : List PairDefinition :=
      [⟨0, "|", "\\", ⟨⟨"Gold"⟩, []⟩, ⟨"Red"⟩⟩, ⟨1, "«", "||", ⟨⟨"Gold"⟩, []⟩, ⟨"Red"⟩⟩]
    let others : List PairDefinition :=
      [⟨0, "||", "|", ⟨⟨"Gold"⟩, []⟩, ⟨"Red"⟩⟩, ⟨1, "\\", "«", ⟨⟨"Gold"⟩, []⟩, ⟨"Red"⟩⟩,
        ⟨2, "|", "||", ⟨⟨"Gold"⟩, []⟩, ⟨"Red"⟩⟩]
    pairs ≠ [] ∧ (∀ l, l ∈ literalsOf others ↔ l ∈ literalsOf pairs) ∧
      Ranks (literalsOf pairs) ["||", "«", "\\", "|"] ∧
      spelled "\\|\\||«|\\\\|\\|" = ["||", "«", "\\", "|"] ∧
      (ofPairs pairs).size = 4 ∧
      (ofPairs others).pattern = "\\|\\||«|\\\\|\\|" := by
  intro pairs others
  have filled : pairs ≠ [] := List.cons_ne_nil _ _
  have inside : ∀ l ∈ literalsOf others, l ∈ literalsOf pairs := by decide
  have covered : ∀ l ∈ literalsOf pairs, l ∈ literalsOf others := by decide
  have same := fun l => Iff.intro (inside l) (covered l)
  have once : ["«", "|", "||", "\\"].Nodup := by decide
  have listed : ∀ l ∈ ["«", "|", "||", "\\"], l ∈ literalsOf pairs := by decide
  have all : ∀ l ∈ literalsOf pairs, l ∈ ["«", "|", "||", "\\"] := by decide
  have written : (ofPairs pairs).pattern = "\\|\\||«|\\\\|\\|" := by decide
  rcases pattern_spells_literals pairs filled with ⟨ranks, size, pattern, sorted⟩
  have read := sorted _ once fun l => ⟨listed l, all l⟩
  rw [← read] at ranks
  rw [written] at read pattern
  refine ⟨filled, same, ranks, read.symm, size.trans ?_, pattern others same⟩
  decide

end BracketColoring.Literals

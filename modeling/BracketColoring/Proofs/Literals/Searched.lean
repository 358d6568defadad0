import BracketColoring.Proofs.Literals.Longest
import BracketColoring.Proofs.Pattern.Alternation
import BracketColoring.Proofs.Pattern.OnePass
import BracketColoring.Proofs.Pattern.Spans

/-!
# What the pattern of a table finds

Of an engine it is relied on that it finds the first alternative of an alternation of literals
(`FindsFirst`). The pattern of a table then finds the longest literals (`pattern_finds_longest`).
Programs are such an engine, and no table has a pattern that they refuse (`findsFirst`,
`exists_program`).
-/

namespace BracketColoring.Literals

open Pattern (firstEnding)
open PatternEngine (compile? spans)

/-- Something that is found, as a match without groups. -/
def toMatch (entry : List Char × String) : Match := ⟨entry.1, entry.2.toList, []⟩

/-- The bytes of what a search finds. -/
def entrySpans (found : List (List Char × String)) : List Span :=
  Match.spans 0 (found.map toMatch)

/-- An engine finds an alternation of literals from left to right, and at each place the first
alternative that the text starts with. -/
def FindsFirst (Rx : Type) [PatternEngine Rx] : Prop :=
  ∀ (literals : List String) (p : Rx), literals ≠ [] → (∀ l ∈ literals, l ≠ "") →
    compile? (alternation literals) = some p →
    ∀ text found tail, Search literals (FirstOf literals) text found tail →
      spans p false text = entrySpans found

/-! ## Programs -/

variable {literals : List String}

/-- Programs are made for alternations of literals. At each place a match begins with the first
alternative that the text starts with. -/
theorem exists_program (present : literals ≠ []) (filled : ∀ l ∈ literals, l ≠ "") :
    ∃ p : Program, compile? (alternation literals) = some p ∧ p.Acyclic ∧
      ∀ text, p.lead? text = firstEnding (literals.map String.toList) [] text := by
  let q := Pattern.alternation (literals.map fun l => .literal l.toList)
  have texts : q = Pattern.alternation ((literals.map String.toList).map Pattern.literal) := by
    rw [List.map_map]
    rfl
  have present' : literals.map String.toList ≠ [] := mt List.map_eq_nil_iff.mp present
  have straight : q.isStraight = true := by
    rw [texts]
    exact Pattern.isStraight_alternation present'
  refine ⟨.ofPattern q, ?_, Program.acyclic_ofPattern straight, fun text => ?_⟩
  · change (Pattern.read? (alternation literals)).map Program.ofPattern = _
    rw [Pattern.read?_alternation present filled, Option.map_some]
  · rw [Program.lead?_ofPattern q (Pattern.isSteady_of_isStraight straight)
      (Program.acyclic_ofPattern straight), ← Pattern.tries_alternation present' [] text, texts]
    rfl

theorem firstEnding_eq_some {text : List Char} {e : Ending}
    (begins : firstEnding (literals.map String.toList) [] text = some e) :
    ∃ l, FirstOf literals text l ∧ text = l.toList ++ e.rest ∧ e.names = [] := by
  rw [firstEnding, List.find?_map, Option.map_map] at begins
  obtain ⟨l, first, rfl⟩ := Option.map_eq_some_iff.mp begins
  refine ⟨l, first, ?_, rfl⟩
  obtain ⟨rest, rfl⟩ : l.toList <+: text :=
    List.isPrefixOf_iff_prefix.mp (by simpa using List.find?_some first)
  simp

theorem firstEnding_eq_none {text : List Char}
    (nothing : firstEnding (literals.map String.toList) [] text = none) :
    ∀ l ∈ literals, ¬ l.toList <+: text := by
  intro l listed starts
  rw [firstEnding, Option.map_eq_none_iff, List.find?_eq_none] at nothing
  exact nothing _ (List.mem_map_of_mem listed) (List.isPrefixOf_iff_prefix.mpr starts)

/-- One pass that takes the first alternative wherever one begins is a search. -/
theorem search_of_onePass (filled : ∀ l ∈ literals, l ≠ "") {lead? : List Char → Option Ending}
    (begins : ∀ text, lead? text = firstEnding (literals.map String.toList) [] text)
    {gap text tail : List Char} {ms : List Match} (pass : OnePass lead? gap text ms tail)
    (absent : ∀ n < gap.length, ∀ l ∈ literals, ¬ l.toList <+: (gap ++ text).drop n) :
    ∃ found, found.map toMatch = ms ∧
      Search literals (FirstOf literals) (gap ++ text) found tail := by
  induction pass with
  | @stop gap =>
    rw [List.append_nil] at absent ⊢
    refine ⟨[], rfl, .nothing fun n l listed => ?_⟩
    rcases Nat.lt_or_ge n gap.length with before | behind
    · exact absent n before l listed
    · rw [List.drop_eq_nil_of_le behind, List.prefix_nil]
      exact fun empty => filled l listed (String.toList_inj.mp empty)
  | @pass gap rest tail c ms ordinary later ih =>
    rw [← List.singleton_append, ← List.append_assoc] at absent ⊢
    refine ih fun n before l listed => ?_
    rw [List.length_append, List.length_singleton] at before
    rcases Nat.lt_succ_iff_lt_or_eq.mp before with earlier | rfl
    · exact absent n earlier l listed
    · rw [begins] at ordinary
      rw [List.append_assoc, List.drop_left]
      exact firstEnding_eq_none ordinary l listed
  | @found gap piece rest tail names ms lead taken later ih =>
    rw [begins] at lead
    obtain ⟨l, first, split, named⟩ := firstEnding_eq_some lead
    obtain rfl := List.append_cancel_right split
    obtain ⟨found, rfl, continued⟩ := ih fun n impossible => absurd impossible (Nat.not_lt_zero n)
    cases named
    refine ⟨(gap, l) :: found, rfl, .found rfl (fun n before l' listed => ?_) first continued⟩
    exact absent n before l' listed

/-- Programs find the first alternative. -/
theorem findsFirst : FindsFirst Program := by
  intro literals p present filled compiles text found tail search
  obtain ⟨p', compiles', acyclic, begins⟩ := exists_program present filled
  obtain rfl := Option.some.inj (compiles.symm.trans compiles')
  have takes : Filled p.lead? := by
    intro text e lead
    rw [begins] at lead
    obtain ⟨l, first, split, -⟩ := firstEnding_eq_some lead
    refine ⟨l.toList, fun empty => ?_, split⟩
    exact filled l (List.mem_of_find?_eq_some first) (String.toList_inj.mp empty)
  have pass := acyclic.onePass_search takes false text
  obtain ⟨found', same, search'⟩ := search_of_onePass filled begins pass fun n impossible =>
    absurd impossible (Nat.not_lt_zero n)
  have alike : found' = found := (search_firstOf_unique search' search).1
  change Match.spans 0 (p.search false text).1 = entrySpans found
  rw [← same, alike]
  rfl

/-! ## Tables -/

theorem pattern_eq (t : Literals) : t.pattern = alternation t.alternatives := by
  rw [pattern, alternation, alternatives, List.map_map]
  rfl

theorem alternatives_ne_nil {pairs : List PairDefinition} (filled : pairs ≠ []) :
    (ofPairs pairs).alternatives ≠ [] := by
  rcases List.exists_cons_of_ne_nil filled with ⟨d, others, rfl⟩
  exact List.ne_nil_of_mem (mem_alternatives_ofPairs.mpr (List.mem_cons_self (a := d.opening)))

theorem ne_empty_of_mem_alternatives {pairs : List PairDefinition}
    (filled : ∀ d ∈ pairs, d.opening ≠ "" ∧ d.closing ≠ "") :
    ∀ l ∈ (ofPairs pairs).alternatives, l ≠ "" := by
  intro l listed
  obtain ⟨b, bound, rfl⟩ := List.mem_map.mp listed
  exact fun empty => nonEmpty_ofPairs filled b bound (String.toList_eq_nil_iff.mpr empty)

/-- The pattern of a table is an alternation, of which an engine finds the first alternative; so it
finds what a search for the longest of all literals finds, and this is the table's scan. Everything
found stands for something, a literal for the first pair that has it; what is found does not depend
on the order of the pairs. -/
theorem pattern_finds_longest (pairs : List PairDefinition)
    (filled : ∀ d ∈ pairs, d.opening ≠ "" ∧ d.closing ≠ "") :
    let t := ofPairs pairs
    t.pattern = "|".intercalate (t.alternatives.map fun l => String.ofList (escape l.toList)) ∧
    (pairs ≠ [] → ∀ (Rx : Type) [PatternEngine Rx], FindsFirst Rx →
      ∀ p : Rx, compile? t.pattern = some p → ∀ text found tail,
        Search (literalsOf pairs) (LongestOf (literalsOf pairs)) text found tail →
          spans p false text = entrySpans found) ∧
    (∀ text found tail,
      Search t.alternatives (FirstOf t.alternatives) text found tail ↔
        Search (literalsOf pairs) (LongestOf (literalsOf pairs)) text found tail) ∧
    (∀ text found tail,
      Search (literalsOf pairs) (LongestOf (literalsOf pairs)) text found tail ↔
        found = (t.scan text).1.map Found.entry ∧ tail = (t.scan text).2) ∧
    (∀ text, ∀ f ∈ (t.scan text).1,
      t.resolve? f.binding.literal = some (f.binding.pair, f.binding.role)) ∧
    (∀ literal, t.resolve? literal = firstUse? pairs literal) ∧
    (∀ pairs', pairs'.Perm pairs → ∀ text,
      ((ofPairs pairs').scan text).1.map Found.entry = (t.scan text).1.map Found.entry ∧
        ((ofPairs pairs').scan text).2 = (t.scan text).2) := by
  intro t
  have longest : ∀ pairs, (∀ d ∈ pairs, d.opening ≠ "" ∧ d.closing ≠ "") → ∀ text found tail,
      Search (literalsOf pairs) (LongestOf (literalsOf pairs)) text found tail ↔
        found = ((ofPairs pairs).scan text).1.map Found.entry ∧
          tail = ((ofPairs pairs).scan text).2 := by
    intro pairs filled text found tail
    rw [← search_firstOf_iff_longestOf, search_firstOf_iff (nonEmpty_ofPairs filled)]
  have first : ∀ text found tail,
      Search t.alternatives (FirstOf t.alternatives) text found tail ↔
        Search (literalsOf pairs) (LongestOf (literalsOf pairs)) text found tail :=
    fun text found tail => search_firstOf_iff_longestOf pairs
  refine ⟨t.pattern_eq, ?engine, first, longest pairs filled, ?resolved, resolve?_ofPairs pairs,
    ?reordered⟩
  case engine =>
    intro present Rx _ findsFirst p compiles text found tail search
    rw [pattern_eq] at compiles
    exact findsFirst _ p (alternatives_ne_nil present) (ne_empty_of_mem_alternatives filled)
      compiles text found tail ((first text found tail).mpr search)
  case resolved =>
    intro text f member
    exact (distinct_ofPairs pairs).resolve? (t.mem_bindings_of_mem_scan text f member)
  case reordered =>
    intro pairs' perm text
    have filled' : ∀ d ∈ pairs', d.opening ≠ "" ∧ d.closing ≠ "" := fun d member =>
      filled d (perm.mem_iff.mp member)
    have search := (longest pairs' filled' text _ _).mpr ⟨rfl, rfl⟩
    exact (longest pairs filled text _ _).mp ((search_longestOf_perm perm).mp search)

/-- A literal inside of a longer one is found where the longer one does not start, for the first
of two pairs that close with it. -/
theorem pattern_finds_longest_nested :
    let pairs : List PairDefinition :=
      [⟨0, "(", ")", ⟨⟨"Gold"⟩, []⟩, ⟨"Red"⟩⟩, ⟨1, "(*", "*)", ⟨⟨"Gold"⟩, []⟩, ⟨"Red"⟩⟩,
        ⟨2, "«", ")", ⟨⟨"Gold"⟩, []⟩, ⟨"Red"⟩⟩]
    (∀ d ∈ pairs, d.opening ≠ "" ∧ d.closing ≠ "") ∧ pairs ≠ [] ∧ FindsFirst Program ∧
      Search (literalsOf pairs) (LongestOf (literalsOf pairs)) "(*é*)«)".toList
        [([], "(*"), (['é'], "*)"), ([], "«"), ([], ")")] [] ∧
      (∃ p : Program, compile? (ofPairs pairs).pattern = some p ∧
        spans p false "(*é*)«)".toList =
          [⟨0, 2, []⟩, ⟨4, 6, []⟩, ⟨6, 8, []⟩, ⟨8, 9, []⟩]) ∧
      (ofPairs pairs).resolve? ")" = some (0, .closing) := by
  intro pairs
  have filled : ∀ d ∈ pairs, d.opening ≠ "" ∧ d.closing ≠ "" := by decide
  have present : pairs ≠ [] := List.cons_ne_nil _ _
  obtain ⟨-, engine, -, longest, -, resolved, -⟩ := pattern_finds_longest pairs filled
  have search : Search (literalsOf pairs) (LongestOf (literalsOf pairs)) "(*é*)«)".toList
      [([], "(*"), (['é'], "*)"), ([], "«"), ([], ")")] [] := (longest _ _ _).mpr (by decide)
  obtain ⟨p, compiles, -⟩ :=
    exists_program (alternatives_ne_nil present) (ne_empty_of_mem_alternatives filled)
  rw [← pattern_eq] at compiles
  refine ⟨filled, present, findsFirst, search, ⟨p, compiles, ?_⟩, (resolved ")").trans (by decide)⟩
  exact engine present Program findsFirst p compiles _ _ _ search

end BracketColoring.Literals

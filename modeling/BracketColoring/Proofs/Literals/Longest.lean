import BracketColoring.Proofs.Literals.Bindings
import BracketColoring.Proofs.Text.Bytes

/-!
# The longest literal of the first pair

A pattern takes the first of its alternatives that a text starts with. Of two literals that the same
text starts with the longer one has more bytes, and `place` keeps the literals in the order of their
bytes: the first alternative is the longest literal. Which pairs ask for a literal, and in which
order, only matters for what it stands for.
-/

namespace BracketColoring.Literals

/-- The alternatives of a table's pattern. -/
def alternatives (t : Literals) : List String := t.bindings.map (·.literal)

/-- All literals of some pairs. -/
def literalsOf (pairs : List PairDefinition) : List String :=
  pairs.flatMap fun d => [d.opening, d.closing]

/-- The first of the alternatives that the text starts with. -/
def FirstOf (alternatives : List String) (text : List Char) (literal : String) : Prop :=
  alternatives.find? (fun l => l.toList.isPrefixOf text) = some literal

/-- The longest of the literals that the text starts with. -/
def LongestOf (literals : List String) (text : List Char) (literal : String) : Prop :=
  literal ∈ literals ∧ literal.toList <+: text ∧
    ∀ l ∈ literals, l.toList <+: text → l.toList.length ≤ literal.toList.length

/-- A text is searched from left to right for literals: at the first place where any of them starts
one is chosen, and the search goes on behind it. It gives the literals, each with the text before
it, and the text behind the last one. -/
inductive Search (literals : List String) (Chosen : List Char → String → Prop) :
    List Char → List (List Char × String) → List Char → Prop
  | nothing {text : List Char} (absent : ∀ n, ∀ l ∈ literals, ¬ l.toList <+: text.drop n) :
      Search literals Chosen text [] text
  | found {text gap rest tail : List Char} {literal : String} {later : List (List Char × String)}
      (whole : text = gap ++ (literal.toList ++ rest))
      (absent : ∀ n < gap.length, ∀ l ∈ literals, ¬ l.toList <+: text.drop n)
      (chosen : Chosen (literal.toList ++ rest) literal)
      (continued : Search literals Chosen rest later tail) :
      Search literals Chosen text ((gap, literal) :: later) tail

/-- The pair and the role of the first pair that has a literal, as its opening if it is both. -/
def firstUse? (pairs : List PairDefinition) (literal : String) : Option (PairId × Role) :=
  pairs.findSome? fun d =>
    if d.opening = literal then some (d.id, .opening)
    else if d.closing = literal then some (d.id, .closing)
    else none

/-! ## What a literal stands for -/

theorem find?_place (p : Binding → Bool) (b : Binding) {bindings : List Binding}
    (absent : p b = true → ∀ old ∈ bindings, p old = false) :
    (place b bindings).find? p = if p b then some b else bindings.find? p := by
  induction bindings with
  | nil => simp [place]
  | cons d rest ih =>
    unfold place
    split
    · rw [List.find?_cons]
      cases p b <;> rfl
    · rw [List.find?_cons, ih fun bound old member => absent bound old (.tail d member)]
      cases bound : p b with
      | false => simp [List.find?_cons]
      | true => simp [absent bound d List.mem_cons_self]

theorem resolve?_register (t : Literals) (b : Binding) (literal : String) :
    (t.register b).resolve? literal =
      (t.resolve? literal).or (if b.literal == literal then some (b.pair, b.role) else none) := by
  unfold register
  split
  · next bound =>
    split
    · next same =>
      rcases List.any_eq_true.mp bound with ⟨old, member, equal⟩
      rw [beq_iff_eq.mp same] at equal
      have listed : (t.resolve? literal).isSome := by
        rw [resolve?, Option.isSome_map, List.find?_isSome]
        exact ⟨old, member, equal⟩
      rw [Option.or_of_isSome listed]
    · rw [Option.or_none]
  · next unbound =>
    have absent : (b.literal == literal) = true →
        ∀ old ∈ t.bindings, (old.literal == literal) = false := by
      intro same old member
      rw [← beq_iff_eq.mp same]
      exact Bool.eq_false_iff.mpr fun equal => unbound (List.any_eq_true.mpr ⟨old, member, equal⟩)
    rw [resolve?, find?_place _ b absent]
    split
    · next same =>
      have nothing : t.resolve? literal = none := by
        rw [resolve?, Option.map_eq_none_iff, List.find?_eq_none]
        simpa using absent same
      rw [nothing]
      rfl
    · rw [Option.or_none]
      rfl

theorem resolve?_foldl_register (t : Literals) (asked : List Binding) (literal : String) :
    (asked.foldl register t).resolve? literal =
      (t.resolve? literal).or
        ((asked.find? fun b => b.literal == literal).map fun b => (b.pair, b.role)) := by
  induction asked generalizing t with
  | nil => simp
  | cons b rest ih =>
    rw [List.foldl_cons, ih, resolve?_register, Option.or_assoc, List.find?_cons]
    cases b.literal == literal <;> rfl

/-- A literal stands for the first pair that has it. -/
theorem resolve?_ofPairs (pairs : List PairDefinition) (literal : String) :
    (ofPairs pairs).resolve? literal = firstUse? pairs literal := by
  rw [ofPairs, resolve?_foldl_register, List.find?_flatMap, List.map_findSome?]
  refine congrArg (List.findSome? · pairs) (funext fun d => ?_)
  by_cases opens : d.opening = literal
  · simp [ofPair, opens]
  · by_cases closes : d.closing = literal
    · simp [ofPair, opens, closes]
    · simp [ofPair, opens, closes]

theorem mem_alternatives_iff {t : Literals} {literal : String} :
    literal ∈ t.alternatives ↔ (t.resolve? literal).isSome := by
  simp [alternatives, resolve?]

theorem mem_alternatives_ofPairs {pairs : List PairDefinition} {literal : String} :
    literal ∈ (ofPairs pairs).alternatives ↔ literal ∈ literalsOf pairs := by
  rw [mem_alternatives_iff, resolve?_ofPairs, firstUse?, List.findSome?_isSome_iff, literalsOf,
    List.mem_flatMap]
  refine exists_congr fun d => and_congr_right fun _ => ?_
  simp only [List.mem_cons, List.not_mem_nil, or_false, eq_comm (a := literal)]
  split
  · next opens => simp [opens]
  · next other =>
    split
    · next closes => simp [closes]
    · next neither => simp [other, neither]

/-! ## The first alternative is the longest literal -/

/-- No literal has more bytes than one before it. -/
def Descending (bindings : List Binding) : Prop :=
  bindings.Pairwise fun a b => b.literal.utf8ByteSize ≤ a.literal.utf8ByteSize

theorem descending_ofPairs (pairs : List PairDefinition) :
    Descending (ofPairs pairs).bindings := by
  apply (sorted_ofPairs pairs).imp
  intro a b before
  rcases rank_lt_rank.mp before with more | ⟨equal, _⟩
  · exact Nat.le_of_lt more
  · exact Nat.le_of_eq equal.symm

/-- Of two literals that a text starts with, one that has no more bytes is not longer. -/
theorem length_le_of_prefixes {text : List Char} {a b : String} (first : a.toList <+: text)
    (second : b.toList <+: text) (size : a.utf8ByteSize ≤ b.utf8ByteSize) :
    a.toList.length ≤ b.toList.length := by
  rcases first with ⟨behindA, wholeA⟩
  rcases second with ⟨behindB, wholeB⟩
  rw [← byteCount_toList, ← byteCount_toList] at size
  rcases exists_between (wholeA.trans wholeB.symm) size with ⟨between, same, _⟩
  simp [same]

theorem eq_of_prefixes {text : List Char} {a b : String} (first : a.toList <+: text)
    (second : b.toList <+: text) (length : a.toList.length = b.toList.length) : a = b :=
  String.toList_inj.mp (List.IsPrefix.eq_of_length
    (List.prefix_of_prefix_length_le first second (Nat.le_of_eq length)) length)

theorem LongestOf.unique {literals : List String} {text : List Char} {a b : String}
    (first : LongestOf literals text a) (second : LongestOf literals text b) : a = b :=
  eq_of_prefixes first.2.1 second.2.1
    (Nat.le_antisymm (second.2.2 a first.1 first.2.1) (first.2.2 b second.1 second.2.1))

theorem longestOf_of_firstOf {t : Literals} (descending : Descending t.bindings)
    {text : List Char} {literal : String} (first : FirstOf t.alternatives text literal) :
    LongestOf t.alternatives text literal := by
  rcases List.find?_eq_some_iff_append.mp first with ⟨starts, before, after, split, absent⟩
  have ordered : t.alternatives.Pairwise fun a b => b.utf8ByteSize ≤ a.utf8ByteSize :=
    List.pairwise_map.mpr descending
  rw [split] at ordered
  have starts := List.isPrefixOf_iff_prefix.mp starts
  refine ⟨List.mem_of_find?_eq_some first, starts, ?_⟩
  intro l member starts'
  rw [split] at member
  rcases List.mem_append.mp member with earlier | here
  · have refused := absent l earlier
    rw [List.isPrefixOf_iff_prefix.mpr starts'] at refused
    cases refused
  · rcases List.mem_cons.mp here with rfl | later
    · exact Nat.le_refl _
    · have smaller := (List.pairwise_cons.mp (List.pairwise_append.mp ordered).2.1).1 l later
      exact length_le_of_prefixes starts' starts smaller

theorem firstOf_iff_longestOf {t : Literals} (descending : Descending t.bindings)
    {text : List Char} {literal : String} :
    FirstOf t.alternatives text literal ↔ LongestOf t.alternatives text literal := by
  constructor
  · exact longestOf_of_firstOf descending
  · intro longest
    cases first : t.alternatives.find? fun l => l.toList.isPrefixOf text with
    | none =>
      have refused := List.find?_eq_none.mp first literal longest.1
      exact absurd (List.isPrefixOf_iff_prefix.mpr longest.2.1) refused
    | some other =>
      rw [longest.unique (longestOf_of_firstOf descending first)]
      exact first

/-! ## Searches -/

namespace Search

variable {literals literals' : List String} {Chosen Chosen' : List Char → String → Prop}
  {text tail tail' : List Char} {found found' : List (List Char × String)}

theorem congr (same : ∀ l, l ∈ literals ↔ l ∈ literals')
    (chosen : ∀ text l, Chosen text l ↔ Chosen' text l) :
    Search literals Chosen text found tail ↔ Search literals' Chosen' text found tail := by
  have chosen : Chosen = Chosen' := funext fun text => funext fun l => propext (chosen text l)
  subst chosen
  have forward : ∀ {ls ls' : List String}, (∀ l, l ∈ ls ↔ l ∈ ls') →
      Search ls Chosen text found tail → Search ls' Chosen text found tail := by
    intro ls ls' same search
    induction search with
    | nothing absent => exact .nothing fun n l member => absent n l ((same l).mpr member)
    | found whole absent chosen _ ih =>
      exact .found whole (fun n before l member => absent n before l ((same l).mpr member)) chosen ih
  exact ⟨forward same, forward fun l => (same l).symm⟩

/-- A search has one outcome when each choice has. -/
theorem unique (listed : ∀ {text l}, Chosen text l → l ∈ literals)
    (functional : ∀ {text l l'}, Chosen text l → Chosen text l' → l = l')
    (search : Search literals Chosen text found tail)
    (search' : Search literals Chosen text found' tail') : found = found' ∧ tail = tail' := by
  induction search generalizing found' tail' with
  | nothing absent =>
    cases search' with
    | nothing => exact ⟨rfl, rfl⟩
    | @found _ gap rest _ l _ whole _ chosen =>
      refine absurd ⟨rest, ?_⟩ (absent gap.length l (listed chosen))
      rw [whole, List.drop_left]
  | @found text gap rest tail l later whole absent chosen _ ih =>
    cases search' with
    | nothing absent' =>
      refine absurd ⟨rest, ?_⟩ (absent' gap.length l (listed chosen))
      rw [whole, List.drop_left]
    | @found _ gap' rest' _ l' later' whole' absent' chosen' continued' =>
      have length : gap.length = gap'.length := by
        refine Nat.le_antisymm (Nat.le_of_not_lt fun before => ?_)
          (Nat.le_of_not_lt fun before => ?_)
        · refine absent gap'.length before l' (listed chosen') ⟨rest', ?_⟩
          rw [whole', List.drop_left]
        · refine absent' gap.length before l (listed chosen) ⟨rest, ?_⟩
          rw [whole, List.drop_left]
      rcases List.append_inj (whole.symm.trans whole') length with ⟨sameGap, behind⟩
      rw [← behind] at chosen'
      have sameLiteral : l = l' := functional chosen chosen'
      subst sameGap sameLiteral
      have sameRest := List.append_cancel_left behind
      subst sameRest
      rcases ih continued' with ⟨rfl, rfl⟩
      exact ⟨rfl, rfl⟩

end Search

theorem search_firstOf_unique {literals : List String} {text tail tail' : List Char}
    {found found' : List (List Char × String)}
    (search : Search literals (FirstOf literals) text found tail)
    (search' : Search literals (FirstOf literals) text found' tail') :
    found = found' ∧ tail = tail' := by
  refine Search.unique (fun chosen => List.mem_of_find?_eq_some chosen) ?_ search search'
  intro text l l' first second
  exact Option.some.inj (first.symm.trans second)

theorem startOf?_eq_some {t : Literals} {text : List Char} {b : Binding}
    (starts : t.startOf? text = some b) : FirstOf t.alternatives text b.literal := by
  unfold FirstOf alternatives
  rw [List.find?_map]
  exact congrArg (Option.map (·.literal)) starts

theorem startOf?_eq_none {t : Literals} {text : List Char} (absent : t.startOf? text = none) :
    ∀ l ∈ t.alternatives, ¬ l.toList <+: text := by
  intro l member starts
  rcases List.mem_map.mp member with ⟨b, listed, rfl⟩
  exact List.find?_eq_none.mp absent b listed (List.isPrefixOf_iff_prefix.mpr starts)

/-- The text before a found literal, and the literal. -/
def Found.entry (f : Found) : List Char × String := (f.gap, f.binding.literal)

/-- A scan is a search that always chooses the first alternative. -/
theorem search_scanFrom {t : Literals} (filled : t.NonEmpty) (skip : Nat) (gap text : List Char)
    (inside : skip ≤ text.length)
    (absent : ∀ n < gap.length, ∀ l ∈ t.alternatives,
      ¬ l.toList <+: (gap.reverse ++ text.drop skip).drop n) :
    Search t.alternatives (FirstOf t.alternatives) (gap.reverse ++ text.drop skip)
      ((t.scanFrom skip gap text).1.map Found.entry) (t.scanFrom skip gap text).2 := by
  fun_induction scanFrom t skip gap text with
  | case1 skip gap =>
    rw [List.drop_nil, List.append_nil] at absent ⊢
    refine .nothing fun n l member => ?_
    rcases Nat.lt_or_ge n gap.length with before | behind
    · exact absent n before l member
    · rw [List.drop_eq_nil_of_le (by simpa using behind), List.prefix_nil]
      rcases List.mem_map.mp member with ⟨b, listed, rfl⟩
      exact filled b listed
  | case2 gap c rest n ih => exact ih (Nat.le_of_succ_le_succ inside) absent
  | case3 gap c rest b starts found tail equal ih =>
    rcases startOf?_some starts with ⟨listed, after, whole⟩
    rcases List.exists_cons_of_ne_nil (filled b listed) with ⟨first, literal, spelled⟩
    have length : b.literal.length - 1 = literal.length := by
      rw [← String.length_toList, spelled, List.length_cons, Nat.add_sub_cancel]
    have behind : rest.drop (b.literal.length - 1) = after := by
      rw [spelled, List.cons_append] at whole
      rw [length, (List.cons.inj whole).2, List.drop_left]
    have enough : b.literal.length - 1 ≤ rest.length := by
      rw [spelled, List.cons_append] at whole
      rw [length, (List.cons.inj whole).2, List.length_append]
      omega
    have continued := ih enough (fun n impossible => absurd impossible (Nat.not_lt_zero n))
    rw [equal, List.reverse_nil, List.nil_append, behind] at continued
    rw [List.drop_zero] at absent ⊢
    refine .found (congrArg (gap.reverse ++ ·) whole) ?_ ?_ continued
    · rw [List.length_reverse]
      exact absent
    · rw [← whole]
      exact startOf?_eq_some starts
  | case4 gap c rest none ih =>
    have whole : (c :: gap).reverse ++ rest.drop 0 = gap.reverse ++ (c :: rest).drop 0 := by simp
    rw [whole] at ih
    refine ih (Nat.zero_le _) fun n before l member => ?_
    rcases Nat.lt_succ_iff_lt_or_eq.mp before with earlier | rfl
    · exact absent n earlier l member
    · have length : gap.length = gap.reverse.length := List.length_reverse.symm
      rw [List.drop_zero, length, List.drop_left]
      exact startOf?_eq_none none l member

theorem nonEmpty_ofPairs {pairs : List PairDefinition}
    (filled : ∀ d ∈ pairs, d.opening ≠ "" ∧ d.closing ≠ "") : (ofPairs pairs).NonEmpty := by
  intro b member empty
  rcases exists_pair_of_mem_ofPairs member with ⟨d, listed, same⟩
  have nothing : d.literal b.role = "" := by
    rw [same] at empty
    exact String.toList_inj.mp empty
  cases role : b.role with
  | opening =>
    rw [role] at nothing
    exact (filled d listed).1 nothing
  | closing =>
    rw [role] at nothing
    exact (filled d listed).2 nothing

/-- A search of a text that always chooses the first alternative is its scan. -/
theorem search_firstOf_iff {t : Literals} (filled : t.NonEmpty) {text tail : List Char}
    {found : List (List Char × String)} :
    Search t.alternatives (FirstOf t.alternatives) text found tail ↔
      found = (t.scan text).1.map Found.entry ∧ tail = (t.scan text).2 := by
  have scanned : Search t.alternatives (FirstOf t.alternatives) text
      ((t.scan text).1.map Found.entry) (t.scan text).2 :=
    search_scanFrom filled 0 [] text (Nat.zero_le _) fun n impossible =>
      absurd impossible (Nat.not_lt_zero n)
  constructor
  · intro search
    exact search_firstOf_unique search scanned
  · intro ⟨sameFound, sameTail⟩
    rw [sameFound, sameTail]
    exact scanned

/-- For a table it is the same to choose the first alternative and the longest literal. -/
theorem search_firstOf_iff_longestOf (pairs : List PairDefinition) {text tail : List Char}
    {found : List (List Char × String)} :
    Search (ofPairs pairs).alternatives (FirstOf (ofPairs pairs).alternatives) text found tail ↔
      Search (literalsOf pairs) (LongestOf (literalsOf pairs)) text found tail := by
  refine Search.congr (fun l => mem_alternatives_ofPairs) fun text l => ?_
  rw [firstOf_iff_longestOf (descending_ofPairs pairs)]
  simp only [LongestOf, mem_alternatives_ofPairs]

theorem search_longestOf_perm {pairs pairs' : List PairDefinition} (perm : pairs'.Perm pairs)
    {text tail : List Char} {found : List (List Char × String)} :
    Search (literalsOf pairs') (LongestOf (literalsOf pairs')) text found tail ↔
      Search (literalsOf pairs) (LongestOf (literalsOf pairs)) text found tail := by
  have same : ∀ l, l ∈ literalsOf pairs' ↔ l ∈ literalsOf pairs := fun l =>
    (perm.flatMap_right fun d => [d.opening, d.closing]).mem_iff
  refine Search.congr same fun text l => ?_
  simp only [LongestOf, same]

end BracketColoring.Literals

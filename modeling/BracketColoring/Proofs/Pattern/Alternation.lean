import BracketColoring.Literals
import BracketColoring.Pattern.Reader
import BracketColoring.Proofs.Pattern.Straight
import Mathlib.Data.List.Induction

/-!
# Alternations of literals

The text of an alternation of literals, in which every character that means something is escaped, is
read as that alternation (`read?_alternation`), whatever the literals are and however many. A match of
it begins with the first of the literals that the text starts with (`tries_alternation`). The normal
form of patterns does not matter: literals of one character each become a set, and in a set none is
preferred to another that can start the same text.
-/

namespace BracketColoring

/-- The text of an alternation of literals. -/
def Literals.alternation (literals : List String) : String :=
  "|".intercalate (literals.map fun l => String.ofList (escape l.toList))

/-! ## Reading -/

namespace Pattern

namespace Reader

open Literals (escape metaCharacters)

/-- The items of a text of which each character stands for itself, in reverse. -/
def charItems (text : List Char) : List Item := text.reverse.map fun c => .part ⟨ofChar c, 0⟩

theorem readStep_plain (budget : Nat) (st : State) {c : Char} (plain : c ∉ metaCharacters)
    (rest : List Char) :
    readStep budget st c rest = (st.push (literal st.flags c) 0).map fun st => (st, rest) := by
  simp only [metaCharacters, List.mem_cons, List.not_mem_nil, or_false, not_or] at plain
  unfold readStep
  split <;> simp_all

theorem isEscapable_of_mem {c : Char} (special : c ∈ metaCharacters) : isEscapable c = true := by
  have all : metaCharacters.all isEscapable = true := by decide +kernel
  exact List.all_eq_true.mp all c special

theorem readStep_escaped (budget : Nat) (st : State) {c : Char} (special : c ∈ metaCharacters)
    (rest : List Char) :
    readStep budget st '\\' (c :: rest) =
      (st.push (literal st.flags c) 0).map fun st => (st, rest) := by
  simp [readStep, readEscape, isEscapable_of_mem special, escapePattern]

/-- The state after a text of which each character stands for itself. -/
def State.behind (st : State) (text : List Char) : State :=
  { st with items := charItems text ++ st.items }

theorem State.behind_behind (st : State) (text more : List Char) :
    (st.behind text).behind more = st.behind (text ++ more) := by
  simp [behind, charItems]

theorem push_literal {st : State} (flags : st.flags = {}) (c : Char) :
    st.push (literal st.flags c) 0 = some (st.behind [c]) := by
  have char : literal st.flags c = ofChar c := by simp [literal, flags]
  rw [char, State.push, if_neg (Nat.not_lt_zero nestingLimit)]
  rfl

theorem readAll_cons (budget : Nat) {st : State} (flags : st.flags = {}) (c : Char)
    (rest : List Char) :
    readAll (budget + 1) st (c :: rest) =
      (readStep budget st c rest).bind fun next => readAll budget next.1 next.2 := by
  rw [readAll, skip, flags, if_neg Bool.false_ne_true]
  rfl

theorem readAll_escape_char (budget : Nat) {st : State} (flags : st.flags = {}) (c : Char)
    (rest : List Char) :
    readAll (budget + 1) st (escape [c] ++ rest) = readAll budget (st.behind [c]) rest := by
  rw [escape, List.flatMap_singleton]
  by_cases special : c ∈ metaCharacters
  · rw [if_pos (List.contains_iff_mem.mpr special), List.cons_append, List.singleton_append,
      readAll_cons _ flags, readStep_escaped budget st special, push_literal flags]
    rfl
  · rw [if_neg (mt List.contains_iff_mem.mp special), List.singleton_append,
      readAll_cons _ flags, readStep_plain budget st special, push_literal flags]
    rfl

/-- Every character of an escaped text is read as itself. -/
theorem readAll_escape (budget : Nat) {st : State} (flags : st.flags = {}) (text rest : List Char) :
    readAll (budget + text.length) st (escape text ++ rest) =
      readAll budget (st.behind text) rest := by
  induction text generalizing st with
  | nil => rfl
  | cons c text ih =>
    have cut : escape (c :: text) = escape [c] ++ escape text := by simp [escape]
    have later := @ih (st.behind [c]) flags
    rw [State.behind_behind] at later
    rw [cut, List.append_assoc, List.length_cons, ← Nat.add_assoc, readAll_escape_char _ flags,
      later]
    rfl

/-- What is made of a literal. -/
def literalPart (text : List Char) : Part := joinItems (charItems text)

theorem behind_alternatives (read : List Part) (text : List Char) :
    State.behind { alternatives := read } text =
      { alternatives := read, items := charItems text } := by
  simp [State.behind]

/-- Each of some escaped texts is read as an alternative. -/
theorem readAll_alternatives (budget : Nat) (read : List Part) {texts : List (List Char)}
    (present : texts ≠ []) :
    ∃ last earlier,
      readAll (budget + (texts.flatMap ('|' :: ·)).length) { alternatives := read }
          (['|'].intercalate (texts.map escape)) =
        some { alternatives := earlier, items := charItems last } ∧
      earlier.reverse ++ [literalPart last] = read.reverse ++ texts.map literalPart := by
  induction texts generalizing read with
  | nil => exact absurd rfl present
  | cons text others ih =>
    cases others with
    | nil =>
      refine ⟨text, read, ?_, rfl⟩
      have enough : budget + ([text].flatMap ('|' :: ·)).length = budget + 1 + text.length := by
        rw [List.flatMap_singleton, List.length_cons]
        omega
      have first := @readAll_escape (budget + 1) { alternatives := read } rfl text []
      rw [List.append_nil] at first
      rw [enough, List.map_singleton, List.intercalate_singleton, first, behind_alternatives]
      rfl
    | cons next others =>
      obtain ⟨last, earlier, done, parts⟩ :=
        ih (literalPart text :: read) (List.cons_ne_nil next others)
      refine ⟨last, earlier, ?_, by simpa using parts⟩
      have enough : budget + ((text :: next :: others).flatMap ('|' :: ·)).length =
          budget + ((next :: others).flatMap ('|' :: ·)).length + 1 + text.length := by
        rw [List.flatMap_cons, List.length_append, List.length_cons]
        omega
      rw [enough, List.map_cons, List.map_cons, List.intercalate_cons_cons, List.append_assoc,
        ← List.map_cons, readAll_escape _ rfl, behind_alternatives, List.singleton_append,
        readAll_cons _ rfl, ← done]
      rfl

theorem foldr_consItem_chars {text : List Char} (filled : text ≠ []) :
    (text.map ofChar).foldr consItem [] = [.literal text] := by
  induction text with
  | nil => exact absurd rfl filled
  | cons c text ih =>
    cases text with
    | nil => rfl
    | cons d text =>
      rw [List.map_cons, List.foldr_cons, ih (List.cons_ne_nil d text)]
      rfl

theorem concat_chars {text : List Char} (filled : text ≠ []) :
    concat (text.map ofChar) = .literal text := by
  have apart : (text.map ofChar).flatMap items = text.map ofChar := by
    rw [List.flatMap_map]
    exact List.map_eq_flatMap.symm
  rw [concat, apart, foldr_consItem_chars filled]
  rfl

theorem nesting_le {depths : List Nat} {n : Nat} (bound : ∀ d ∈ depths, d ≤ n) :
    nesting depths ≤ n + 1 := by
  unfold nesting
  split
  · exact Nat.zero_le _
  · next depth => exact Nat.le_succ_of_le (bound depth List.mem_cons_self)
  · refine Nat.succ_le_succ ?_
    refine List.foldlRecOn (motive := fun m => m ≤ n) depths max (Nat.zero_le n) ?_
    exact fun m below d member => Nat.max_le.mpr ⟨below, bound d member⟩

theorem pattern_literalPart {text : List Char} (filled : text ≠ []) :
    (literalPart text).pattern = .literal text := by
  have chars : (charItems text).reverse.filterMap Item.pattern? = text.map ofChar := by
    simp [charItems, Function.comp_def, Item.pattern?]
  rw [literalPart, joinItems, chars, concat_chars filled]

theorem depth_literalPart (text : List Char) : (literalPart text).depth ≤ 1 := by
  refine nesting_le fun d member => ?_
  simp [charItems, Item.depth] at member
  omega

theorem alternation_literalPart (text : List Char) :
    alternation [(literalPart text).pattern] = (literalPart text).pattern := by
  by_cases empty : text = []
  · subst empty
    rfl
  · rw [pattern_literalPart empty]
    rfl

/-- What is made of some alternatives and the literal behind them. -/
theorem body_alternatives (earlier : List Part) (last : List Char) :
    let st : State := { alternatives := earlier, items := charItems last }
    st.body.pattern = alternation ((earlier.reverse ++ [literalPart last]).map (·.pattern)) ∧
      st.body.depth ≤ nesting ((literalPart last :: earlier).map (·.depth)) := by
  cases earlier with
  | nil => exact ⟨(alternation_literalPart last).symm, Nat.le_refl _⟩
  | cons part earlier =>
    refine ⟨?_, Nat.le_refl _⟩
    rw [← List.reverse_cons]
    rfl

end Reader

open Reader

theorem length_le_escape (text : List Char) : text.length ≤ (Literals.escape text).length := by
  induction text with
  | nil => exact Nat.le_refl 0
  | cons c text ih =>
    have part : 1 ≤ (if Literals.metaCharacters.contains c then ['\\', c] else [c]).length := by
      split <;> simp
    rw [Literals.escape, List.flatMap_cons, List.length_append, List.length_cons]
    rw [Literals.escape] at ih
    omega

theorem length_flatMap_le (texts : List (List Char)) :
    (texts.flatMap ('|' :: ·)).length ≤
      (['|'].intercalate (texts.map Literals.escape)).length + 1 := by
  induction texts with
  | nil => simp
  | cons text others ih =>
    have longer := length_le_escape text
    cases others with
    | nil => simpa using longer
    | cons next others =>
      rw [List.map_cons] at ih ⊢
      rw [List.flatMap_cons, List.map_cons, List.intercalate_cons_cons, List.length_append,
        List.length_cons, List.length_append, List.length_append, List.length_singleton]
      omega

theorem read?_alternation {literals : List String} (present : literals ≠ [])
    (filled : ∀ l ∈ literals, l ≠ "") :
    read? (Literals.alternation literals) =
      some (alternation (literals.map fun l => .literal l.toList)) := by
  let texts := literals.map String.toList
  have written : (Literals.alternation literals).toList =
      ['|'].intercalate (texts.map Literals.escape) := by
    simp [Literals.alternation, String.toList_intercalate, texts, Function.comp_def]
  obtain ⟨budget, enough⟩ := Nat.exists_eq_add_of_le' (length_flatMap_le texts)
  obtain ⟨last, earlier, done, parts⟩ :=
    readAll_alternatives budget [] (mt List.map_eq_nil_iff.mp present : texts ≠ [])
  rw [← enough, ← written] at done
  have patterns : texts.map (fun text => (literalPart text).pattern) =
      literals.map fun l => .literal l.toList := by
    rw [List.map_map]
    refine List.map_congr_left fun l member => pattern_literalPart ?_
    exact fun empty => filled l member (String.toList_inj.mp empty)
  obtain ⟨body, deep⟩ := body_alternatives earlier last
  rw [parts, List.reverse_nil, List.nil_append, List.map_map] at body
  have shallow : ∀ d ∈ (literalPart last :: earlier).map (·.depth), d ≤ 1 := by
    refine List.forall_mem_map.mpr fun part member => ?_
    have listed : part ∈ earlier.reverse ++ [literalPart last] := by simpa [or_comm] using member
    rw [parts] at listed
    obtain ⟨text, -, rfl⟩ := List.mem_map.mp listed
    exact depth_literalPart text
  have closed : decide ((State.body { alternatives := earlier, items := charItems last }).depth ≤
      nestingLimit) = true :=
    decide_eq_true (Nat.le_trans (Nat.le_trans deep (nesting_le shallow)) (by decide))
  simp only [read?, done, Option.bind_eq_bind, Option.bind_some, closed]
  rw [body, ← patterns]
  rfl

end Pattern

/-! ## Sets of some characters -/

namespace CharSet

/-- The characters that a set is known to be built from are those that are in it. -/
def Known (s : CharSet) : Prop := ∀ cs, s.few? = some cs → ∀ c, s.contains c = true ↔ c ∈ cs

theorem known_single (c : Char) : (single c).Known := by
  intro cs few d
  have only : (single c).few? = some [c] := by simp [single, few?, fewBetween?]
  obtain rfl := Option.some.inj (only.symm.trans few)
  rw [Outlook.contains_single, List.mem_singleton]

theorem contains_join (a b : CharSet) (c : Char) :
    (a.join b).contains c = true ↔ a.contains c = true ∨ b.contains c = true := by
  unfold join
  split
  · next empty => simp [empty, contains]
  · split
    · next empty => simp [empty, contains]
    · simp [contains]

theorem Known.join {a b : CharSet} (first : a.Known) (second : b.Known) : (a.join b).Known := by
  unfold CharSet.join
  split
  · exact second
  · split
    · exact first
    · intro cs few c
      simp only [few?, Option.bind_eq_bind, Option.bind_eq_some_iff, fewTogether?] at few
      obtain ⟨as, few, bs, few', together⟩ := few
      split at together
      · cases together
        rw [contains, Bool.or_eq_true, first as few, second bs few', List.mem_append]
      · cases together

/-- The set of some characters. -/
def ofChars (cs : List Char) : CharSet := cs.foldl (fun s c => s.join (.single c)) .none

theorem ofChars_concat (cs : List Char) (c : Char) :
    ofChars (cs ++ [c]) = (ofChars cs).join (.single c) := by
  simp [ofChars]

theorem known_ofChars (cs : List Char) : (ofChars cs).Known := by
  induction cs using List.reverseRecOn with
  | nil =>
    intro cs few c
    cases few
    simp [ofChars, contains]
  | append_singleton cs c ih =>
    rw [ofChars_concat]
    exact ih.join (known_single c)

theorem contains_ofChars {cs : List Char} {c : Char} :
    (ofChars cs).contains c = true ↔ c ∈ cs := by
  induction cs using List.reverseRecOn with
  | nil => simp [ofChars, contains]
  | append_singleton cs d ih =>
    rw [ofChars_concat, contains_join, ih, Outlook.contains_single, List.mem_append,
      List.mem_singleton]

theorem contains_of_only {s : CharSet} (known : s.Known) {c : Char} (only : s.only? = some c)
    (d : Char) : s.contains d = true ↔ d = c := by
  unfold only? at only
  split at only
  · next first others few =>
    split at only
    · next same =>
      cases only
      have equal : ∀ d ∈ others, d = c := by simpa using same
      rw [known _ few, List.mem_cons]
      exact ⟨fun member => member.elim id (equal d), .inl⟩
    · cases only
  · cases only

end CharSet

/-! ## The first alternative -/

namespace Pattern

theorem tries_ofSet {s : CharSet} (known : s.Known) (next : Outlook) :
    (ofSet s).tries next = Outlook.reading s next := by
  unfold ofSet
  cases only : s.only? with
  | none => rfl
  | some c =>
    funext names text
    cases text with
    | nil => rfl
    | cons d rest =>
      have same : (CharSet.single c).contains d = s.contains d := by
        rw [Bool.eq_iff_iff, Outlook.contains_single, CharSet.contains_of_only known only]
      change (if (CharSet.single c).contains d then _ else _) = if s.contains d then _ else _
      rw [same]
      rfl

/-- Nothing stands behind the pattern. -/
def ends : Outlook := fun names rest => some ⟨names, rest⟩

/-- The first of some texts that a text starts with, as a match. -/
def firstEnding (texts : List (List Char)) (names : List String) (text : List Char) :
    Option Ending :=
  (texts.find? fun t => t.isPrefixOf text).map fun t => ⟨names, text.drop t.length⟩

theorem tries_literal (t : List Char) (names : List String) (text : List Char) :
    (literal t).tries ends names text =
      if t.isPrefixOf text then some ⟨names, text.drop t.length⟩ else none := by
  by_cases starts : t <+: text
  · obtain ⟨rest, rfl⟩ := starts
    rw [if_pos (List.isPrefixOf_iff_prefix.mpr (List.prefix_append t rest)), List.drop_left]
    exact Outlook.readingAll_append t ends names rest
  · rw [if_neg (mt List.isPrefixOf_iff_prefix.mp starts)]
    exact Outlook.readingAll_eq_none starts ends names

theorem tries_choice (texts : List (List Char)) (names : List String) (text : List Char) :
    (choice (texts.map literal)).tries ends names text = firstEnding texts names text := by
  induction texts with
  | nil => cases text <;> rfl
  | cons t others ih =>
    have split : (choice ((t :: others).map literal)).tries ends names text =
        ((literal t).tries ends names text).or
          ((choice (others.map literal)).tries ends names text) := by
      cases others with
      | nil =>
        have none : (choice (([] : List (List Char)).map literal)).tries ends names text = none := ih
        rw [none, Option.or_none]
        rfl
      | cons u others => rfl
    rw [split, ih, tries_literal, firstEnding, firstEnding, List.find?_cons]
    cases t.isPrefixOf text <;> rfl

theorem exists_chars {texts : List (List Char)} {cs : List Char}
    (chars : (texts.map literal).mapM char? = some cs) : texts = cs.map ([·]) := by
  induction texts generalizing cs with
  | nil => cases chars; rfl
  | cons t others ih =>
    simp only [List.map_cons, List.mapM_cons, Option.bind_eq_bind, Option.bind_eq_some_iff,
      Option.pure_def, Option.some.injEq] at chars
    obtain ⟨c, char, rest, later, rfl⟩ := chars
    have same : t = [c] := by
      unfold char? at char
      split at char
      · next equal =>
        cases char
        exact literal.inj equal
      · cases char
    rw [same, ih later, List.map_cons]

/-- An alternation of literals is a choice among them, or the set of their characters if each has
just one. -/
theorem alternation_literals {texts : List (List Char)} (present : texts ≠ []) :
    alternation (texts.map literal) = choice (texts.map literal) ∨
      ∃ cs, texts = cs.map ([·]) ∧ alternation (texts.map literal) = ofSet (.ofChars cs) := by
  have apart : (texts.map literal).flatMap sides = texts.map literal := by
    rw [List.flatMap_map]
    exact List.map_eq_flatMap.symm
  unfold alternation alternationWithin
  simp only [apart]
  cases texts with
  | nil => exact absurd rfl present
  | cons t others =>
    cases others with
    | nil => exact .inl rfl
    | cons u others =>
      have unset : ((t :: u :: others).map literal).mapM set? = none := rfl
      simp only [List.map_cons] at unset ⊢
      cases chars : (literal t :: literal u :: others.map literal).mapM char? with
      | none =>
        simp [unset, isSeq]
      | some cs =>
        refine .inr ⟨cs, exists_chars chars, rfl⟩

theorem isStraight_choice (texts : List (List Char)) :
    (choice (texts.map literal)).isStraight = true := by
  induction texts with
  | nil => rfl
  | cons t others ih =>
    cases others with
    | nil => rfl
    | cons u others => exact ih

theorem isStraight_alternation {texts : List (List Char)} (present : texts ≠ []) :
    (alternation (texts.map literal)).isStraight = true := by
  rcases alternation_literals present with same | ⟨cs, -, same⟩
  · rw [same, isStraight_choice]
  · rw [same, ofSet]
    split <;> rfl

theorem firstEnding_chars (cs : List Char) (names : List String) (text : List Char) :
    firstEnding (cs.map ([·])) names text = Outlook.reading (.ofChars cs) ends names text := by
  rw [firstEnding, List.find?_map, Option.map_map]
  cases text with
  | nil =>
    rw [Outlook.reading, Option.map_eq_none_iff, List.find?_eq_none]
    simp
  | cons d rest =>
    rw [Outlook.reading]
    cases found : cs.find? ((fun t => t.isPrefixOf (d :: rest)) ∘ ([·])) with
    | none =>
      have absent := List.find?_eq_none.mp found
      have unlisted : d ∉ cs := fun listed => absent d listed (by simp)
      rw [if_neg (mt CharSet.contains_ofChars.mp unlisted), Option.map_none]
    | some c =>
      have same : c = d := by simpa using List.find?_some found
      subst same
      rw [if_pos (CharSet.contains_ofChars.mpr (List.mem_of_find?_eq_some found))]
      rfl

theorem tries_alternation {texts : List (List Char)} (present : texts ≠ []) (names : List String)
    (text : List Char) :
    (alternation (texts.map literal)).tries ends names text = firstEnding texts names text := by
  rcases alternation_literals present with same | ⟨cs, rfl, same⟩
  · rw [same, tries_choice]
  · rw [same, tries_ofSet (CharSet.known_ofChars cs), firstEnding_chars]

end Pattern

end BracketColoring

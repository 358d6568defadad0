import BracketColoring.Proofs.Pattern.Compiled
import BracketColoring.Proofs.Pattern.OnePass
import BracketColoring.Proofs.Region.Lossless
import BracketColoring.Region.Languages

/-!
# Comments and strings of the C family

The lexer for these languages is a scanner that goes over a text once (`CLike.regions`): outside of a
region the next characters tell whether one begins, and where it ends is found without going back
(`CLike.region?`). The rules of the lexer say the same by patterns; what comes of each of them is a
function of the text (`tries_blockComment` and the lemmas beside it), and no two of them begin alike.
-/

namespace BracketColoring

namespace RegionLexer

namespace CLike

/-! ## The scanner -/

/-- The number of characters up to the end of the line. -/
def lineLength (text : List Char) : Nat := (text.takeWhile (· ≠ '\n')).length

/-- The number of characters up to the end of the first `*/`. -/
def closeComment? : List Char → Option Nat
  | [] => none
  | '*' :: '/' :: _ => some 2
  | _ :: rest => (closeComment? rest).map (· + 1)

/-- The number of characters up to the end of the string that they are in. A backslash escapes the
character after it; a line ends without the string being closed. -/
def closeString? : List Char → Option Nat
  | [] => none
  | '"' :: _ => some 1
  | '\n' :: _ => none
  | ['\\'] => none
  | '\\' :: c :: rest => if c = '\n' then none else (closeString? rest).map (· + 2)
  | _ :: rest => (closeString? rest).map (· + 1)

/-- The number of characters up to the end of the character literal that they are in. -/
def closeCharacter? : List Char → Option Nat
  | '\\' :: c :: '\'' :: _ => if c = '\n' then none else some 3
  | c :: '\'' :: _ => if c = '\'' ∨ c = '\\' ∨ c = '\n' then none else some 2
  | _ => none

/-- The category and the length of the region that begins here. -/
def region? : List Char → Option (Category × Nat)
  | '/' :: '/' :: rest => some (.comment, lineLength rest + 2)
  | '/' :: '*' :: rest => (closeComment? rest).map fun n => (.comment, n + 2)
  | '"' :: rest => (closeString? rest).map fun n => (.string, n + 1)
  | '\'' :: rest => (closeCharacter? rest).map fun n => (.string, n + 1)
  | _ => none

/-- Goes over a text from a place on. `skip` counts the characters of a region that are still to be
passed over. -/
def regionsFrom (pos skip : Nat) : List Char → List Region
  | [] => []
  | c :: rest =>
    match skip with
    | n + 1 => regionsFrom (pos + 1) n rest
    | 0 =>
      match region? (c :: rest) with
      | some (category, length) =>
        ⟨pos, category, (c :: rest).take length⟩ :: regionsFrom (pos + 1) (length - 1) rest
      | none => regionsFrom (pos + 1) 0 rest

def regions (text : List Char) : List Region := regionsFrom 0 0 text

/-! ## The patterns of the rules -/

/-- Every character but a line feed. -/
def inLine : CharSet := .compl (.single '\n')

/-- The characters that stand for themselves between two quotes. -/
def plain (quote : Char) : CharSet :=
  .compl (.union (.union (.single quote) (.single '\\')) (.single '\n'))

/-- A character between two quotes. -/
def unit (quote : Char) : Pattern :=
  .alt (.seq (.literal ['\\']) (.set inLine)) (.set (plain quote))

def lineComment : Pattern := .seq (.literal ['/', '/']) (.repeated (.set inLine) 0 none true)

def blockComment : Pattern :=
  .seq (.literal ['/', '*']) (.seq (.repeated (.set .all) 0 none false) (.literal ['*', '/']))

def string : Pattern :=
  .seq (.literal ['"']) (.seq (.repeated (unit '"') 0 none true) (.literal ['"']))

def character : Pattern := .seq (.literal ['\'']) (.seq (unit '\'') (.literal ['\'']))

def pattern : Pattern :=
  .alt (.group (groupName 0) lineComment)
    (.alt (.group (groupName 1) blockComment)
      (.alt (.group (groupName 2) string) (.group (groupName 3) character)))

theorem read?_regionPattern : Pattern.read? (regionPattern cLikeRules) = some pattern := by
  decide +kernel

theorem compile?_regionPattern :
    PatternEngine.compile? (regionPattern cLikeRules) = some (Program.ofPattern pattern) := by
  change (Pattern.read? (regionPattern cLikeRules)).map Program.ofPattern = _
  rw [read?_regionPattern, Option.map_some]

theorem acyclic_pattern : (Program.ofPattern pattern).Acyclic := by
  decide +kernel

/-! ## What comes of each rule -/

section

variable {next : Outlook} {names : List String} {text : List Char}

theorem tries_literal_seq (start : List Char) (q : Pattern) (rest : List Char) :
    (Pattern.seq (.literal start) q).tries next names (start ++ rest) = q.tries next names rest :=
  Outlook.readingAll_append start (q.tries next) names rest

theorem tries_literal_seq_eq_none {start : List Char} (q : Pattern) (other : ¬ start <+: text) :
    (Pattern.seq (.literal start) q).tries next names text = none :=
  Outlook.readingAll_eq_none other (q.tries next) names

theorem contains_inLine : inLine.contains = fun c => decide (c ≠ '\n') := by
  funext c
  rw [Bool.eq_iff_iff, decide_eq_true_iff, inLine, CharSet.contains, Bool.not_eq_true',
    ← Bool.not_eq_true, Outlook.contains_single]

theorem contains_plain {quote c : Char} :
    (plain quote).contains c = true ↔ c ≠ quote ∧ c ≠ '\\' ∧ c ≠ '\n' := by
  simp only [plain, CharSet.contains, Bool.not_eq_true', ← Bool.not_eq_true, Bool.or_eq_true,
    Outlook.contains_single, not_or, and_assoc]

theorem drop_lineLength (text : List Char) :
    text.drop (lineLength text) = text.dropWhile inLine.contains := by
  have behind : (text.takeWhile inLine.contains ++ text.dropWhile inLine.contains).drop
      (text.takeWhile inLine.contains).length = text.dropWhile inLine.contains := List.drop_left
  rw [List.takeWhile_append_dropWhile] at behind
  rw [← behind, contains_inLine, lineLength]

theorem tries_lineComment (ends : ∀ names text, (next names text).isSome = true)
    (rest : List Char) :
    lineComment.tries next names ('/' :: '/' :: rest) = next names (rest.drop (lineLength rest)) := by
  refine (tries_literal_seq ['/', '/'] _ rest).trans ?_
  rw [drop_lineLength]
  exact Outlook.loop_reading inLine ends names rest

theorem loop_blockComment (ends : ∀ names text, (next names text).isSome = true)
    (names : List String) (text : List Char) :
    Outlook.loop (Outlook.reading .all) false (Outlook.readingAll ['*', '/'] next) names text =
      (closeComment? text).bind fun n => next names (text.drop n) := by
  fun_induction closeComment? text with
  | case1 =>
    rw [Outlook.loop_eq (Outlook.reads_reading _)]
    rfl
  | case2 rest =>
    have closes : Outlook.readingAll ['*', '/'] next names ('*' :: '/' :: rest) = next names rest :=
      Outlook.readingAll_append ['*', '/'] next names rest
    rw [Outlook.loop_eq (Outlook.reads_reading _), Outlook.turning, if_neg Bool.false_ne_true, closes,
      Option.or_of_isSome (ends names rest)]
    rfl
  | case3 c rest open_ ih =>
    have goesOn : ¬ ['*', '/'] <+: c :: rest := by
      rintro ⟨tail, split⟩
      obtain ⟨rfl, rfl⟩ := List.cons.inj split
      exact open_ tail rfl rfl
    rw [Outlook.loop_eq (Outlook.reads_reading _), Outlook.turning, if_neg Bool.false_ne_true,
      Outlook.readingAll_eq_none goesOn, Option.none_or]
    refine ih.trans ?_
    rw [Option.bind_map]
    rfl

theorem tries_blockComment (ends : ∀ names text, (next names text).isSome = true)
    (rest : List Char) :
    blockComment.tries next names ('/' :: '*' :: rest) =
      (closeComment? rest).bind fun n => next names (rest.drop n) :=
  (tries_literal_seq ['/', '*'] _ rest).trans (loop_blockComment ends names rest)

theorem tries_unit_escape (quote c : Char) (rest : List Char) :
    (unit quote).tries next names ('\\' :: c :: rest) =
      if c = '\n' then none else next names rest := by
  have escaped : (Pattern.seq (.literal ['\\']) (.set inLine)).tries next names ('\\' :: c :: rest) =
      if inLine.contains c then next names rest else none :=
    tries_literal_seq ['\\'] (.set inLine) (c :: rest)
  have other : Outlook.reading (plain quote) next names ('\\' :: c :: rest) = none :=
    if_neg fun stands => (contains_plain.mp stands).2.1 rfl
  refine (congrArg₂ Option.or escaped other).trans ?_
  rw [Option.or_none, contains_inLine]
  by_cases feed : c = '\n' <;> simp [feed]

theorem tries_unit_backslash (quote : Char) : (unit quote).tries next names ['\\'] = none := by
  have other : Outlook.reading (plain quote) next names ['\\'] = none :=
    if_neg fun stands => (contains_plain.mp stands).2.1 rfl
  have escaped : (Pattern.seq (.literal ['\\']) (.set inLine)).tries next names ['\\'] = none :=
    tries_literal_seq ['\\'] (.set inLine) []
  exact congrArg₂ Option.or escaped other

theorem tries_unit_plain (quote : Char) {c : Char} (plain : c ≠ '\\') (rest : List Char) :
    (unit quote).tries next names (c :: rest) =
      if c = quote ∨ c = '\n' then none else next names rest := by
  have unescaped : ¬ ['\\'] <+: c :: rest := by
    rintro ⟨tail, split⟩
    exact plain (List.cons.inj split).1.symm
  refine (congrArg₂ Option.or (tries_literal_seq_eq_none _ unescaped) rfl).trans ?_
  have stands : (CLike.plain quote).contains c = true ↔ ¬ (c = quote ∨ c = '\n') := by
    rw [contains_plain, not_or, and_iff_right plain]
  rw [Option.none_or, Pattern.tries, Outlook.reading]
  by_cases ends : c = quote ∨ c = '\n'
  · rw [if_pos ends, if_neg (mt stands.mp (not_not.mpr ends))]
  · rw [if_neg ends, if_pos (stands.mpr ends)]

theorem loop_string (names : List String) (text : List Char) :
    Outlook.loop (unit '"').tries true (Outlook.readingAll ['"'] next) names text =
      (closeString? text).bind fun n => next names (text.drop n) := by
  have reads : Outlook.Reads (unit '"').tries 1 := (unit '"').reads_tries rfl
  have opened : ∀ c rest, c ≠ '"' → Outlook.readingAll ['"'] next names (c :: rest) = none := by
    intro c rest other
    refine Outlook.readingAll_eq_none ?_ next names
    rintro ⟨tail, split⟩
    exact other (List.cons.inj split).1.symm
  fun_induction closeString? text with
  | case1 =>
    rw [Outlook.loop_eq reads]
    rfl
  | case2 rest =>
    rw [Outlook.loop_eq reads, Outlook.turning, if_pos rfl, tries_unit_plain '"' (by decide)]
    exact Outlook.readingAll_append ['"'] next names rest
  | case3 rest =>
    rw [Outlook.loop_eq reads, Outlook.turning, if_pos rfl, tries_unit_plain '"' (by decide),
      opened '\n' rest (by decide)]
    rfl
  | case4 =>
    rw [Outlook.loop_eq reads, Outlook.turning, if_pos rfl, tries_unit_backslash,
      opened '\\' [] (by decide)]
    rfl
  | case5 rest =>
    rw [Outlook.loop_eq reads, Outlook.turning, if_pos rfl, tries_unit_escape,
      opened '\\' _ (by decide)]
    rfl
  | case6 c rest inLine ih =>
    rw [Outlook.loop_eq reads, Outlook.turning, if_pos rfl, tries_unit_escape, if_neg inLine, ih,
      opened '\\' _ (by decide), Option.or_none, Option.bind_map]
    rfl
  | case7 c rest quote feed backslash escape ih =>
    have plain : c ≠ '\\' := by
      rintro rfl
      cases rest with
      | nil => exact backslash rfl rfl
      | cons d rest => exact escape d rest rfl rfl
    rw [Outlook.loop_eq reads, Outlook.turning, if_pos rfl, tries_unit_plain '"' plain,
      if_neg (not_or.mpr ⟨quote, feed⟩), ih, opened c rest quote, Option.or_none, Option.bind_map]
    rfl

theorem tries_string (rest : List Char) :
    string.tries next names ('"' :: rest) =
      (closeString? rest).bind fun n => next names (rest.drop n) :=
  (tries_literal_seq ['"'] _ rest).trans (loop_string names rest)

theorem tries_character (rest : List Char) :
    character.tries next names ('\'' :: rest) =
      (closeCharacter? rest).bind fun n => next names (rest.drop n) := by
  refine (tries_literal_seq ['\''] _ rest).trans ?_
  rw [Pattern.tries, Pattern.tries]
  have unclosed : ∀ names text, (∀ tail, text = '\'' :: tail → False) →
      Outlook.readingAll ['\''] next names text = none := by
    intro names text open_
    refine Outlook.readingAll_eq_none ?_ next names
    rintro ⟨tail, rfl⟩
    exact open_ tail rfl
  fun_cases closeCharacter? rest with
  | case1 tail => rw [tries_unit_escape, if_pos rfl, Option.bind_none]
  | case2 c tail inLine =>
    rw [tries_unit_escape, if_neg inLine]
    exact Outlook.readingAll_append ['\''] next names tail
  | case3 c tail unescaped other =>
    by_cases backslash : c = '\\'
    · subst backslash
      rw [tries_unit_escape, if_neg (by decide), unclosed names tail fun t => unescaped t rfl,
        Option.bind_none]
    · have ends : c = '\'' ∨ c = '\n' := by simpa [backslash] using other
      rw [tries_unit_plain '\'' backslash, if_pos ends, Option.bind_none]
  | case4 c tail unescaped stands =>
    obtain ⟨quote, backslash, feed⟩ := (not_or.trans (and_congr_right' not_or)).mp stands
    rw [tries_unit_plain '\'' backslash, if_neg (not_or.mpr ⟨quote, feed⟩)]
    exact Outlook.readingAll_append ['\''] next names tail
  | case5 rest escaped plain =>
    rw [Option.bind_none]
    cases rest with
    | nil => rfl
    | cons c rest =>
      by_cases backslash : c = '\\'
      · subst backslash
        cases rest with
        | nil => exact tries_unit_backslash '\''
        | cons d rest =>
          rw [tries_unit_escape, unclosed names rest fun tail same => escaped d tail (by rw [same]),
            ite_self]
      · rw [tries_unit_plain '\'' backslash,
          unclosed names rest fun tail same => plain c tail (by rw [same]), ite_self]

end

/-! ## The rules together -/

/-- A match behind which nothing else is tried. -/
def ended (index : Nat) : Outlook := fun names rest =>
  some ⟨addName (groupName index) names, rest⟩

theorem ended_isSome (index : Nat) (names : List String) (rest : List Char) :
    (ended index names rest).isSome = true := rfl

/-- The rule that matches a text, if its region begins there. -/
inductive Begins (text : List Char) : Option (Category × Nat) → Option Ending → Prop
  | nothing : Begins text none none
  | rule {i n : Nat} {r : Rule} (here : cLikeRules[i]? = some r) :
      Begins text (some (r.category, n)) (some ⟨[groupName i], text.drop n⟩)

theorem Begins.of_none {text : List Char} {found : Option (Category × Nat)}
    (begins : Begins text found none) : found = none := by
  cases begins
  rfl

theorem Begins.of_some {text : List Char} {found : Option (Category × Nat)} {e : Ending}
    (begins : Begins text found (some e)) :
    ∃ i n r, cLikeRules[i]? = some r ∧ found = some (r.category, n) ∧
      e = ⟨[groupName i], text.drop n⟩ := by
  cases begins with
  | rule here => exact ⟨_, _, _, here, rfl, rfl⟩

theorem Begins.of_option {text : List Char} {i k : Nat} {r : Rule} (here : cLikeRules[i]? = some r)
    (length? : Option Nat) :
    Begins text (length?.map fun n => (r.category, n + k))
      (length?.bind fun n => ended i [] (text.drop (n + k))) := by
  cases length? with
  | none => exact .nothing
  | some n => exact .rule here

theorem lead?_eq (text : List Char) :
    (Program.ofPattern pattern).lead? text =
      (lineComment.tries (ended 0) [] text).or ((blockComment.tries (ended 1) [] text).or
        ((string.tries (ended 2) [] text).or (character.tries (ended 3) [] text))) :=
  Program.lead?_ofPattern pattern rfl acyclic_pattern text

/-- A match of the rules begins where the scanner finds a region, and is as long. -/
theorem begins_lead? (text : List Char) :
    Begins text (region? text) ((Program.ofPattern pattern).lead? text) := by
  rw [lead?_eq]
  fun_cases region? text with
  | case1 rest =>
    rw [tries_lineComment (ended_isSome 0)]
    exact .rule (i := 0) rfl
  | case2 rest =>
    have line : lineComment.tries (ended 0) [] ('/' :: '*' :: rest) = none :=
      tries_literal_seq_eq_none _ (by simp)
    have string : string.tries (ended 2) [] ('/' :: '*' :: rest) = none :=
      tries_literal_seq_eq_none _ (by simp)
    have character : character.tries (ended 3) [] ('/' :: '*' :: rest) = none :=
      tries_literal_seq_eq_none _ (by simp)
    rw [line, string, character, tries_blockComment (ended_isSome 1), Option.none_or, Option.or_none,
      Option.or_none]
    exact .of_option (i := 1) rfl (closeComment? rest)
  | case3 rest =>
    have line : lineComment.tries (ended 0) [] ('"' :: rest) = none :=
      tries_literal_seq_eq_none _ (by simp)
    have block : blockComment.tries (ended 1) [] ('"' :: rest) = none :=
      tries_literal_seq_eq_none _ (by simp)
    have character : character.tries (ended 3) [] ('"' :: rest) = none :=
      tries_literal_seq_eq_none _ (by simp)
    rw [line, block, character, tries_string, Option.none_or, Option.none_or, Option.or_none]
    exact .of_option (i := 2) rfl (closeString? rest)
  | case4 rest =>
    have line : lineComment.tries (ended 0) [] ('\'' :: rest) = none :=
      tries_literal_seq_eq_none _ (by simp)
    have block : blockComment.tries (ended 1) [] ('\'' :: rest) = none :=
      tries_literal_seq_eq_none _ (by simp)
    have string : string.tries (ended 2) [] ('\'' :: rest) = none :=
      tries_literal_seq_eq_none _ (by simp)
    rw [line, block, string, tries_character, Option.none_or, Option.none_or, Option.none_or]
    exact .of_option (i := 3) rfl (closeCharacter? rest)
  | case5 text noLine noBlock noString noCharacter =>
    have line : lineComment.tries (ended 0) [] text = none :=
      tries_literal_seq_eq_none _ fun ⟨rest, split⟩ => noLine rest split.symm
    have block : blockComment.tries (ended 1) [] text = none :=
      tries_literal_seq_eq_none _ fun ⟨rest, split⟩ => noBlock rest split.symm
    have string : string.tries (ended 2) [] text = none :=
      tries_literal_seq_eq_none _ fun ⟨rest, split⟩ => noString rest split.symm
    have character : character.tries (ended 3) [] text = none :=
      tries_literal_seq_eq_none _ fun ⟨rest, split⟩ => noCharacter rest split.symm
    rw [line, block, string, character]
    exact .nothing

/-! ## The regions of a text -/

theorem closeComment?_le {text : List Char} {n : Nat} (closes : closeComment? text = some n) :
    n ≤ text.length := by
  fun_induction closeComment? text generalizing n with
  | case1 => cases closes
  | case2 rest =>
    cases closes
    simp
  | case3 c rest open_ ih =>
    obtain ⟨m, later, rfl⟩ := Option.map_eq_some_iff.mp closes
    exact Nat.succ_le_succ (ih later)

theorem closeString?_le {text : List Char} {n : Nat} (closes : closeString? text = some n) :
    n ≤ text.length := by
  fun_induction closeString? text generalizing n with
  | case2 rest =>
    cases closes
    simp
  | case6 c rest inLine ih =>
    obtain ⟨m, later, rfl⟩ := Option.map_eq_some_iff.mp closes
    exact Nat.add_le_add_right (ih later) 2
  | case7 c rest quote feed backslash escape ih =>
    obtain ⟨m, later, rfl⟩ := Option.map_eq_some_iff.mp closes
    exact Nat.succ_le_succ (ih later)
  | case1 | case3 | case4 | case5 => cases closes

theorem closeCharacter?_le {text : List Char} {n : Nat} (closes : closeCharacter? text = some n) :
    n ≤ text.length := by
  revert closes
  fun_cases closeCharacter? text with
  | case2 | case4 =>
    rintro ⟨⟩
    simp
  | case1 | case3 | case5 => rintro ⟨⟩

/-- A region has a character, and does not go on behind the text. -/
theorem length_of_region? {text : List Char} {category : Category} {n : Nat}
    (here : region? text = some (category, n)) : 0 < n ∧ n ≤ text.length := by
  revert here
  fun_cases region? text with
  | case1 rest =>
    rintro ⟨⟩
    exact ⟨Nat.succ_pos _, Nat.add_le_add_right (List.takeWhile_sublist _).length_le 2⟩
  | case2 rest =>
    intro here
    obtain ⟨m, closes, ⟨⟩⟩ := Option.map_eq_some_iff.mp here
    exact ⟨Nat.succ_pos _, Nat.add_le_add_right (closeComment?_le closes) 2⟩
  | case3 rest =>
    intro here
    obtain ⟨m, closes, ⟨⟩⟩ := Option.map_eq_some_iff.mp here
    exact ⟨Nat.succ_pos _, Nat.succ_le_succ (closeString?_le closes)⟩
  | case4 rest =>
    intro here
    obtain ⟨m, closes, ⟨⟩⟩ := Option.map_eq_some_iff.mp here
    exact ⟨Nat.succ_pos _, Nat.succ_le_succ (closeCharacter?_le closes)⟩
  | case5 => rintro ⟨⟩

theorem filled_lead? : Filled (Program.ofPattern pattern).lead? := by
  intro text e begins
  have spec := begins_lead? text
  rw [begins] at spec
  obtain ⟨i, n, r, -, here, rfl⟩ := spec.of_some
  obtain ⟨positive, inside⟩ := length_of_region? here
  refine ⟨text.take n, ?_, (List.take_append_drop n text).symm⟩
  rw [← List.length_pos_iff, List.length_take]
  omega

theorem regionsFrom_skip (pos : Nat) {n : Nat} {text : List Char} (inside : n ≤ text.length) :
    regionsFrom pos n text = regionsFrom (pos + n) 0 (text.drop n) := by
  induction n generalizing pos text with
  | zero => rfl
  | succ n ih =>
    cases text with
    | nil => cases inside
    | cons c rest =>
      rw [regionsFrom, ih (pos + 1) (Nat.le_of_succ_le_succ inside), List.drop_succ_cons,
        Nat.add_right_comm, Nat.add_assoc]

theorem groupName_ne {i j : Nat} {r : Rule} (here : cLikeRules[i]? = some r) (less : j < i) :
    groupName j ≠ groupName i := by
  obtain ⟨inside, -⟩ := List.getElem?_eq_some_iff.mp here
  have all : ∀ i < 4, ∀ j < i, groupName j ≠ groupName i := by decide
  exact all i inside j less

/-- The regions among the matches of one pass are those that the scanner finds. -/
theorem regions_of_onePass {l : RegionLexer} (rules : l.rules = cLikeRules)
    {gap text tail : List Char} {ms : List Match}
    (pass : OnePass (Program.ofPattern pattern).lead? gap text ms tail) (pos : Nat) :
    l.regionsOf pos ms = regionsFrom (pos + gap.length) 0 text := by
  induction pass generalizing pos with
  | stop => rfl
  | @pass gap rest tail c ms ordinary later ih =>
    have spec := begins_lead? (c :: rest)
    rw [ordinary] at spec
    rw [ih, regionsFrom, spec.of_none, List.length_append, List.length_singleton, Nat.add_assoc]
  | @found gap piece rest tail names ms begins filled later ih =>
    have spec := begins_lead? (piece ++ rest)
    rw [begins] at spec
    obtain ⟨i, n, r, rule, here, same⟩ := spec.of_some
    obtain ⟨rfl, behind⟩ := Ending.mk.inj same
    have inside := (length_of_region? here).2
    have length : n = piece.length := by
      have left := congrArg List.length behind
      rw [List.length_drop] at left
      rw [List.length_append] at left inside
      omega
    subst length
    have category : l.regionCategory? ⟨gap, piece, [groupName i]⟩ = some r.category := by
      refine Lexer.regionCategory?_eq_some_iff.mpr ⟨filled, Lexer.category?_eq_some_iff.mpr ?_⟩
      refine ⟨i, r, by rw [rules, rule], rfl, List.mem_singleton_self _, ?_⟩
      intro j less
      rw [List.mem_singleton]
      exact groupName_ne rule less
    obtain ⟨c, piece, rfl⟩ := List.exists_cons_of_ne_nil filled
    rw [List.cons_append] at here
    have skipped : regionsFrom (pos + gap.length + 1) piece.length (piece ++ rest) =
        regionsFrom (pos + gap.length + 1 + piece.length) 0 rest := by
      rw [regionsFrom_skip _ (by simp), List.drop_left]
    rw [Lexer.regionsOf, category]
    dsimp only
    rw [ih, List.cons_append, regionsFrom, here]
    refine congrArg₂ List.cons ?_ ?_
    · rw [← List.cons_append, List.take_left]
    · rw [List.length_nil, Nat.add_zero, List.length_cons, Nat.add_sub_cancel, skipped,
        Nat.add_assoc _ 1, Nat.add_comm 1]

end CLike

/-- The lexer for the C family is the scanner: of every text it gives the tokens of its regions, in
order and at their places, and between them those of the gaps. -/
theorem cLike_scans :
    ∃ l, cLike? = some l ∧ ∀ text : String, ∃ children,
      Tokenizer.tokenize l text = (.ok (.list children), l) ∧
      Token.regionsFrom 0 children = CLike.regions text.toList ∧
      Lays l.punctuation 0 text.toList (CLike.regions text.toList) children := by
  obtain ⟨l, compiled⟩ : ∃ l, cLike? = some l := by
    apply Option.isSome_iff_exists.mp
    decide +kernel
  refine ⟨l, compiled, fun text => ?_⟩
  obtain ⟨rules, together, -⟩ := ofRules?_eq_some_iff.mp compiled
  obtain ⟨p, compiles, present⟩ := compiled_cons_iff.mp together
  have program := Option.some.inj (CLike.compile?_regionPattern.symm.trans compiles)
  have pass := CLike.acyclic_pattern.onePass_search CLike.filled_lead? true text.toList
  rw [program] at pass
  have whole := p.whole_search true text.toList
  have tokens := tokenize_of_some present.symm text.toList
  generalize p.search true text.toList = search at pass whole tokens
  rw [← program] at pass
  have cut := l.cut_tokensFrom 0 [] search.2 search.1
  rw [List.nil_append, whole] at cut
  have others : ∀ r ∈ l.regionsOf 0 search.1, r.category ≠ .punctuation := by
    intro r listed
    obtain ⟨rule, member, same⟩ := Lexer.category_of_mem_regionsOf listed
    have none : ∀ rule ∈ cLikeRules, rule.category ≠ .punctuation := by decide
    rw [← same]
    exact none rule (rules ▸ member)
  have lays := cut.lays Program.lawful
  have leaves := lays.regionsFrom others
  have regions := CLike.regions_of_onePass rules pass 0
  rw [List.length_nil, Nat.add_zero] at leaves lays
  rw [regions] at leaves lays
  exact ⟨_, by simp [Tokenizer.tokenize, tokens], leaves, lays⟩

/-- A quote in a comment opens no string, and slashes in a string no comment. -/
example :
    CLike.regions "a//\"\n\"/*\"/*'*/".toList =
      [⟨1, .comment, "//\"".toList⟩, ⟨5, .string, "\"/*\"".toList⟩,
        ⟨9, .comment, "/*'*/".toList⟩] := by
  decide

end RegionLexer

end BracketColoring

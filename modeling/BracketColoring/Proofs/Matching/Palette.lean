import BracketColoring.Proofs.Matching.Depth
import BracketColoring.Proofs.Settings.Colors
import Mathlib.Data.Nat.ModEq

/-!
# Colors by depth and by order

In consecutive mode an opening takes the palette entry at its depth or, if openings are cycled, at
the number of openings before it, each counted round and moved on by the number of its pair if pairs
start at places of their own. `FollowsPalette` says so about the document alone. Two openings that
follow each other then differ by one step and by the numbers of their pairs, and only the two
together can take a whole round (`neighbours_follow_palette`).
-/

namespace BracketColoring

def colorAt (recorded : List ColoredOccurrence) (i : Nat) : Option Color :=
  (recorded[i]?).map (·.color)

namespace Palette

variable {p : Palette}

theorem mod_lt_length (p : Palette) (index : Nat) : index % p.size < p.toList.length :=
  Nat.mod_lt index p.size_pos

theorem getElem?_mod (p : Palette) (index : Nat) :
    p.toList[index % p.size]? = some (p.colorAt index) :=
  List.getElem?_eq_getElem (p.mod_lt_length index)

theorem colorAt_eq_iff (distinct : p.toList.Nodup) {a b : Nat} :
    p.colorAt a = p.colorAt b ↔ a ≡ b [MOD p.size] := by
  rw [← Option.some_inj, ← getElem?_mod, ← getElem?_mod,
    List.getElem?_inj (p.mod_lt_length a) distinct]
  rfl

end Palette

namespace Settings

variable {s : Settings} {os : List Occurrence} {i j : Nat} {o o' : Occurrence} {d : PairDefinition}

/-- Where a pair starts in the palette. -/
def colorOffset (s : Settings) (pair : PairId) : Nat := if s.uniqueOpening then pair else 0

/-- How far an opening is in the palette: the openings before it, of which only those without a
closing yet count if openings are not cycled. -/
noncomputable def cycleIndex (s : Settings) (os : List Occurrence) (i : Nat) : Nat :=
  if s.cycleOpenings then openings (os.take i)
  else (unanswered (OpensAt os) (Joined os) i).ncard

theorem cycleIndex_eq (mode : s.mode = .consecutive) (known : ∀ o ∈ os, s.Knows o.pair)
    {es : List StackEntry} {opened : Nat} (before : s.stackAt os i = .shared es opened) :
    s.cycleIndex os i = if s.cycleOpenings then opened else es.length := by
  obtain ⟨es', counted⟩ := exists_shared_stackAt mode known i
  obtain ⟨-, rfl⟩ := MatchStack.shared.inj (before.symm.trans counted)
  rw [cycleIndex, (measures_size mode known).ncard_unanswered, before]
  rfl

theorem colorAt_opening (mode : s.mode = .consecutive) (known : ∀ o ∈ os, s.Knows o.pair)
    (present : os[i]? = some o) (role : o.role = .opening) (pair : s.pair? o.pair = some d) :
    colorAt (s.matchAll (.start s) os).1 i =
      some (d.palette.colorAt (s.cycleIndex os i + s.colorOffset o.pair)) := by
  have numbered : d.id = o.pair := (known o (List.mem_of_getElem? present)).id_eq pair
  obtain ⟨es, before⟩ := exists_shared_stackAt mode known i
  rw [cycleIndex_eq mode known before, colorAt, getElem?_recorded known present pair, before]
  simp only [matchNext, matchShared, role, sharedColor, colorOffset, numbered, Option.map_some]
  rfl

theorem colorAt_of_joined (mode : s.mode = .consecutive) (known : ∀ o ∈ os, s.Knows o.pair)
    (joined : Joined os i j) :
    colorAt (s.matchAll (.start s) os).1 j = colorAt (s.matchAll (.start s) os).1 i := by
  obtain ⟨o, c, first, second, opening, closing, -, same, -⟩ := id joined
  obtain ⟨d, pair, numbered⟩ := known o (List.mem_of_getElem? first)
  obtain ⟨es, before⟩ := exists_shared_stackAt mode known i
  obtain ⟨opened, reached⟩ := stackAt_of_joined known first pair joined before
  rw [colorAt, colorAt, getElem?_recorded known first pair,
    getElem?_recorded known second (same ▸ pair), before, reached]
  simp [matchNext, matchShared, opening, closing]

/-- A closing is recorded with the range of an opening exactly when it is joined with an opening
there. -/
theorem matched_iff_exists_joined (mode : s.mode = .consecutive)
    (known : ∀ o ∈ os, s.Knows o.pair) {r : Range} :
    statusAt (s.matchAll (.start s) os).1 j = some (.matched r) ↔
      ∃ i o, os[i]? = some o ∧ o.range = r ∧ Joined os i j := by
  constructor
  · intro matched
    cases present : os[j]? with
    | none =>
      have all : (s.matchAll (.start s) os).1.map (·.occurrence) = os := occurrences_matchAll known
      have outside : (s.matchAll (.start s) os).1[j]? = none := by
        rw [← all] at present
        simpa using present
      simp [statusAt, outside] at matched
    | some c =>
      obtain ⟨d, pair, -⟩ := known c (List.mem_of_getElem? present)
      cases role : c.role with
      | opening =>
        obtain ⟨es, before⟩ := exists_shared_stackAt mode known j
        rw [statusAt, getElem?_recorded known present pair, before] at matched
        simp [matchNext, matchShared, role] at matched
      | closing => exact exists_joined_of_statusAt mode known present role matched
  · rintro ⟨i, o, first, rfl, joined⟩
    exact statusAt_of_joined mode known first joined

end Settings

/-- Colors as they can be read off a document: openings step through the palette, and what is joined
has one color. -/
structure FollowsPalette (s : Settings) (palette : Palette) (os : List Occurrence)
    (recorded : List ColoredOccurrence) : Prop where
  all : recorded.map (·.occurrence) = os
  opening : ∀ i o, os[i]? = some o → o.role = .opening →
    colorAt recorded i =
      palette.toList[(s.cycleIndex os i + s.colorOffset o.pair) % palette.size]?
  matched : ∀ j r, statusAt recorded j = some (.matched r) ↔
    ∃ i o, os[i]? = some o ∧ o.range = r ∧ Joined os i j
  closing : ∀ i j, Joined os i j → colorAt recorded j = colorAt recorded i

namespace FollowsPalette

variable {s : Settings} {palette : Palette} {os : List Occurrence}
  {recorded : List ColoredOccurrence} {i j : Nat} {o o' : Occurrence}

theorem color_eq_iff (follows : FollowsPalette s palette os recorded)
    (distinct : palette.toList.Nodup) (first : os[i]? = some o) (second : os[j]? = some o')
    (opening : o.role = .opening) (opening' : o'.role = .opening) :
    colorAt recorded i = colorAt recorded j ↔
      s.cycleIndex os i + s.colorOffset o.pair ≡
        s.cycleIndex os j + s.colorOffset o'.pair [MOD palette.size] := by
  rw [follows.opening i o first opening, follows.opening j o' second opening',
    palette.getElem?_mod, palette.getElem?_mod, Option.some_inj, Palette.colorAt_eq_iff distinct]

/-- With a color for each pair, pairs that start at places of their own differ at the same place. -/
theorem color_ne (follows : FollowsPalette s palette os recorded)
    (unique : s.uniqueOpening = true) (distinct : palette.toList.Nodup)
    (enough : s.pairs.length ≤ palette.size) (known : ∀ o ∈ os, s.Knows o.pair)
    (first : os[i]? = some o) (second : os[j]? = some o') (opening : o.role = .opening)
    (opening' : o'.role = .opening) (other : o.pair ≠ o'.pair)
    (level : s.cycleIndex os i = s.cycleIndex os j) :
    colorAt recorded i ≠ colorAt recorded j := by
  have numbered : ∀ o ∈ os, o.pair < palette.size := by
    intro o membership
    obtain ⟨d, pair, -⟩ := known o membership
    exact Nat.lt_of_lt_of_le (List.getElem?_eq_some_iff.mp pair).1 enough
  rw [Ne, follows.color_eq_iff distinct first second opening opening', level]
  simp only [Settings.colorOffset, unique, if_true]
  intro same
  exact other ((Nat.ModEq.add_left_cancel' _ same).eq_of_lt_of_lt
    (numbered o (List.mem_of_getElem? first)) (numbered o' (List.mem_of_getElem? second)))

end FollowsPalette

namespace Settings

variable {s : Settings} {os : List Occurrence}

theorem exists_palette (valid : s.Valid) (mode : s.mode = .consecutive) :
    ∃ palette, ∀ d ∈ s.pairs, d.palette = palette := by
  obtain ⟨d, membership⟩ := List.exists_mem_of_ne_nil _ valid.inhabited
  exact ⟨d.palette, fun d' membership' => (valid.shared mode d' membership' d membership).1⟩

theorem followsPalette_matchAll {palette : Palette} (shared : ∀ d ∈ s.pairs, d.palette = palette)
    (mode : s.mode = .consecutive) (known : ∀ o ∈ os, s.Knows o.pair) :
    FollowsPalette s palette os (s.matchAll (.start s) os).1 := by
  constructor
  case all => exact occurrences_matchAll known
  case opening =>
    intro i o present role
    obtain ⟨d, pair, -⟩ := known o (List.mem_of_getElem? present)
    rw [colorAt_opening mode known present role pair, shared d (List.mem_of_getElem? pair),
      palette.getElem?_mod]
  case matched => exact fun j r => matched_iff_exists_joined mode known
  case closing => exact fun i j => colorAt_of_joined mode known

/-- In consecutive mode the colors follow the palette; and if pairs start at places of their own,
the openings of different pairs at one place have different colors. -/
theorem openings_follow_palette (valid : s.Valid) (mode : s.mode = .consecutive)
    (known : ∀ o ∈ os, s.Knows o.pair) (ordered : os.Pairwise fun a b => a.line ≤ b.line) :
    let recorded := ((LineCache.forSettings s).processAll s os).occurrences
    ∃ palette, (∀ d ∈ s.pairs, d.palette = palette) ∧ FollowsPalette s palette os recorded ∧
      (s.uniqueOpening = true → palette.toList.Nodup → s.pairs.length ≤ palette.size →
        ∀ i j o o', os[i]? = some o → os[j]? = some o' → o.role = .opening → o'.role = .opening →
          o.pair ≠ o'.pair → s.cycleIndex os i = s.cycleIndex os j →
          colorAt recorded i ≠ colorAt recorded j) := by
  intro recorded
  have run : recorded = (s.matchAll (.start s) os).1 := LineCache.occurrences_processAll ordered
  obtain ⟨palette, shared⟩ := exists_palette valid mode
  have follows : FollowsPalette s palette os recorded :=
    run ▸ followsPalette_matchAll shared mode known
  refine ⟨palette, shared, follows, ?_⟩
  intro unique distinct enough i j o o' first second opening opening' other level
  exact follows.color_ne unique distinct enough known first second opening opening' other level

theorem openings_follow_palette_crossed :
    let s : Settings := { classic with uniqueOpening := true }
    let mark (line column : Nat) (literal : String) (pair : PairId) (role : Role) : Occurrence :=
      ⟨⟨⟨line, column⟩, ⟨line, column + 1⟩⟩, literal, pair, role⟩
    let os := [mark 0 0 "(" 0 .opening, mark 0 1 "[" 1 .opening, mark 0 2 ")" 0 .closing,
      mark 1 0 "]" 1 .closing, mark 1 1 "\x7b" 2 .opening]
    let recorded := ((LineCache.forSettings s).processAll s os).occurrences
    s.Valid ∧ (∀ o ∈ os, s.Knows o.pair) ∧ (os.Pairwise fun a b => a.line ≤ b.line) ∧
      (∃ palette, FollowsPalette s palette os recorded) ∧
      s.cycleIndex os 1 = s.cycleIndex os 4 ∧ colorAt recorded 1 ≠ colorAt recorded 4 := by
  intro s mark os recorded
  have valid : s.Valid := valid_classic.modify rfl rfl
  have known : ∀ o ∈ os, s.Knows o.pair := by decide
  have ordered : os.Pairwise fun a b => a.line ≤ b.line := by decide
  obtain ⟨palette, shared, follows, apart⟩ := openings_follow_palette valid rfl known ordered
  have first : palette = ⟨⟨"Gold"⟩, [⟨"Orchid"⟩, ⟨"LightSkyBlue"⟩]⟩ :=
    (shared _ (List.mem_cons_self)).symm
  have level : s.cycleIndex os 1 = s.cycleIndex os 4 := by
    rw [cycleIndex_eq rfl known (i := 1) rfl, cycleIndex_eq rfl known (i := 4) rfl]
    rfl
  refine ⟨valid, known, ordered, ⟨palette, follows⟩, level, ?_⟩
  exact apart rfl (first ▸ by decide) (first ▸ by decide) 1 4 _ _ rfl rfl rfl rfl (by decide) level

/-! ## Openings that follow each other -/

theorem openings_take_of_not_opensAt {i j : Nat} (before : i ≤ j)
    (none : ∀ n, i ≤ n → n < j → ¬ OpensAt os n) :
    openings (os.take j) = openings (os.take i) := by
  induction j, before using Nat.le_induction with
  | base => rfl
  | succ n above ih =>
    rw [List.take_add_one, openings_append, ih fun m low high => none m low (by omega)]
    cases present : os[n]? with
    | none => rfl
    | some o =>
      have closing : o.role ≠ .opening := fun role =>
        none n above (Nat.lt_succ_self n) ⟨o, present, role⟩
      simp [openings_cons, closing]

/-- If openings are cycled, each is one step further than the one before it. -/
theorem cycleIndex_next (cycled : s.cycleOpenings = true) {i j : Nat} (opening : OpensAt os i)
    (before : i < j) (none : ∀ n, i < n → n < j → ¬ OpensAt os n) :
    s.cycleIndex os j = s.cycleIndex os i + 1 := by
  obtain ⟨o, present, role⟩ := opening
  simp only [cycleIndex, cycled, if_true]
  rw [openings_take_of_not_opensAt before none, List.take_add_one, openings_append, present]
  simp [openings_cons, role]

/-- If openings are cycled, each steps on in the palette from the one before it. So the two have
different colors, unless pairs start at places of their own and the later one is of a pair that
starts one place earlier. -/
theorem neighbours_follow_palette (valid : s.Valid) (mode : s.mode = .consecutive)
    (cycled : s.cycleOpenings = true) (known : ∀ o ∈ os, s.Knows o.pair)
    (ordered : os.Pairwise fun a b => a.line ≤ b.line) :
    let recorded := ((LineCache.forSettings s).processAll s os).occurrences
    ∃ palette, (∀ d ∈ s.pairs, d.palette = palette) ∧
      ∀ i j o o', os[i]? = some o → os[j]? = some o' → o.role = .opening → o'.role = .opening →
        i < j → (∀ n, i < n → n < j → ¬ OpensAt os n) →
        let count := openings (os.take i)
        colorAt recorded i = palette.toList[(count + s.colorOffset o.pair) % palette.size]? ∧
        colorAt recorded j = palette.toList[(count + 1 + s.colorOffset o'.pair) % palette.size]? ∧
        (palette.toList.Nodup → 2 ≤ palette.size →
          (colorAt recorded i = colorAt recorded j ↔
            s.uniqueOpening = true ∧ o.pair ≡ o'.pair + 1 [MOD palette.size])) := by
  intro recorded
  have run : recorded = (s.matchAll (.start s) os).1 := LineCache.occurrences_processAll ordered
  obtain ⟨palette, shared⟩ := exists_palette valid mode
  have follows : FollowsPalette s palette os recorded :=
    run ▸ followsPalette_matchAll shared mode known
  refine ⟨palette, shared, ?_⟩
  intro i j o o' first second opening opening' before none count
  have here : s.cycleIndex os i = count := by rw [cycleIndex, if_pos cycled]
  have next : s.cycleIndex os j = count + 1 :=
    here ▸ cycleIndex_next cycled ⟨o, first, opening⟩ before none
  refine ⟨here ▸ follows.opening i o first opening, next ▸ follows.opening j o' second opening', ?_⟩
  intro distinct two
  rw [follows.color_eq_iff distinct first second opening opening', here, next, Nat.add_assoc]
  rw [Nat.ModEq.add_iff_left rfl, Nat.add_comm 1]
  cases unique : s.uniqueOpening with
  | true => simp [colorOffset, unique]
  | false =>
    have step : ¬ 0 ≡ 1 [MOD palette.size] := by
      rw [Nat.ModEq, Nat.zero_mod, Nat.mod_eq_of_lt two]
      exact Nat.zero_ne_one
    simp [colorOffset, unique, step]

theorem neighbours_follow_palette_unique :
    let s : Settings := { classic with uniqueOpening := true, cycleOpenings := true }
    let mark (line column : Nat) (literal : String) (pair : PairId) (role : Role) : Occurrence :=
      ⟨⟨⟨line, column⟩, ⟨line, column + 1⟩⟩, literal, pair, role⟩
    let os := [mark 0 0 "(" 0 .opening, mark 0 1 ")" 0 .closing, mark 1 0 "[" 1 .opening,
      mark 1 1 "(" 0 .opening]
    let recorded := ((LineCache.forSettings s).processAll s os).occurrences
    s.Valid ∧ (∀ o ∈ os, s.Knows o.pair) ∧ (os.Pairwise fun a b => a.line ≤ b.line) ∧
      colorAt recorded 0 ≠ colorAt recorded 2 ∧ colorAt recorded 2 = colorAt recorded 3 := by
  intro s mark os recorded
  have valid : s.Valid := valid_classic.modify rfl rfl
  have known : ∀ o ∈ os, s.Knows o.pair := by decide
  have ordered : os.Pairwise fun a b => a.line ≤ b.line := by decide
  obtain ⟨palette, shared, step⟩ := neighbours_follow_palette valid rfl rfl known ordered
  have first : palette = ⟨⟨"Gold"⟩, [⟨"Orchid"⟩, ⟨"LightSkyBlue"⟩]⟩ :=
    (shared _ List.mem_cons_self).symm
  subst first
  have closes : ∀ n, 0 < n → n < 2 → ¬ OpensAt os n := by
    rintro n above below ⟨o, present, role⟩
    obtain rfl : n = 1 := by omega
    cases present
    cases role
  obtain ⟨-, -, apart⟩ := step 0 2 _ _ rfl rfl rfl rfl (by decide) closes
  obtain ⟨-, -, alike⟩ := step 2 3 _ _ rfl rfl rfl rfl (by decide) (by omega)
  refine ⟨valid, known, ordered, ?_, ?_⟩
  · rw [Ne, apart (by decide) (by decide)]
    decide
  · rw [alike (by decide) (by decide)]
    decide

/-- Openings that follow each other do not always differ, even if openings are cycled. -/
theorem neighbours_not_apart :
    let palette : Palette := ⟨⟨"A"⟩, [⟨"B"⟩]⟩
    let s : Settings :=
      { mode := .consecutive
        pairs := [⟨0, "(", ")", palette, ⟨"X"⟩⟩, ⟨1, "[", "]", palette, ⟨"X"⟩⟩]
        uniqueOpening := true
        cycleOpenings := true
        debounce := 0 }
    let os : List Occurrence := [⟨⟨⟨0, 0⟩, ⟨0, 1⟩⟩, "[", 1, .opening⟩,
      ⟨⟨⟨0, 1⟩, ⟨0, 2⟩⟩, "(", 0, .opening⟩, ⟨⟨⟨0, 2⟩, ⟨0, 3⟩⟩, ")", 0, .closing⟩,
      ⟨⟨⟨0, 3⟩, ⟨0, 4⟩⟩, "]", 1, .closing⟩]
    let recorded := ((LineCache.forSettings s).processAll s os).occurrences
    s.Valid ∧ palette.toList.Nodup ∧ 2 ≤ palette.size ∧ OpensAt os 0 ∧ OpensAt os 1 ∧
      colorAt recorded 0 = some ⟨"B"⟩ ∧ colorAt recorded 1 = some ⟨"B"⟩ := by
  intro palette s os recorded
  have made : Settings.consecutive [("(", ")"), ("[", "]")] [⟨"A"⟩, ⟨"B"⟩] ⟨"X"⟩ =
      .ok { s with uniqueOpening := false, cycleOpenings := false, debounce := 200 } := rfl
  exact ⟨(valid_consecutive made).modify rfl rfl, by decide, by decide, ⟨_, rfl, rfl⟩,
    ⟨_, rfl, rfl⟩, rfl, rfl⟩

end Settings

end BracketColoring

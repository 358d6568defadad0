import BracketColoring.Proofs.Settings.Valid
import Mathlib.Data.List.Forall2

/-!
# The grammar of settings documents

A list of pairs is read if and only if it is written as the relations `WritesPair`, `WritesPalette`,
`WritesConsecutive` and `WritesIndependent` say, and what is read is what they relate it to. The
place of a value makes a difference to errors only.
-/

namespace BracketColoring

/-! ## What is written -/

/-- A bracket pair is a text of two characters, or an array of two texts. -/
inductive WritesPair : Json → String × String → Prop
  | characters (opening closing : Char) :
      WritesPair (.string (String.ofList [opening, closing]))
        (String.singleton opening, String.singleton closing)
  | texts (opening closing : String) :
      WritesPair (.array [.string opening, .string closing]) (opening, closing)

/-- A color is a text that is not empty. -/
def WritesColor (value : Json) (color : Color) : Prop :=
  value = .string color.name ∧ color.name ≠ ""

/-- A palette is an array of colors that is not empty. -/
def WritesPalette (value : Json) (palette : List Color) : Prop :=
  ∃ items, value = .array items ∧ items ≠ [] ∧ List.Forall₂ WritesColor items palette

/-- The list of consecutive mode has at least three elements: pairs, a palette and a color. -/
def WritesConsecutive (value : Json) (pairs : List (String × String)) (palette : List Color)
    (orphan : Color) : Prop :=
  ∃ items paletteItem orphanItem, value = .array (items ++ [paletteItem, orphanItem]) ∧
    3 ≤ (items ++ [paletteItem, orphanItem]).length ∧ List.Forall₂ WritesPair items pairs ∧
    WritesPalette paletteItem palette ∧ WritesColor orphanItem orphan

/-- An entry of the list of independent mode is an array of a pair, a palette and a color. -/
def WritesSpec (value : Json) (spec : PairSpec) : Prop :=
  ∃ pairItem paletteItem orphanItem, value = .array [pairItem, paletteItem, orphanItem] ∧
    WritesPair pairItem (spec.opening, spec.closing) ∧ WritesPalette paletteItem spec.palette ∧
    WritesColor orphanItem spec.orphan

def WritesIndependent (value : Json) (specs : List PairSpec) : Prop :=
  ∃ items, value = .array items ∧ List.Forall₂ WritesSpec items specs

/-- The two lists of a document, decoded. -/
structure Decoded where
  pairs : List (String × String)
  palette : List Color
  orphan : Color
  specs : List PairSpec

/-- The lists of a document are written as the grammar says, and mean the decoded parts. -/
structure Document.Means (d : Document) (parts : Decoded) : Prop where
  consecutive : WritesConsecutive d.consecutivePairs parts.pairs parts.palette parts.orphan
  independent : WritesIndependent d.independentPairs parts.specs

/-- In consecutive mode every pair has the palette and the color of the list. -/
def shareColors (palette : List Color) (orphan : Color) (pair : String × String) : PairSpec :=
  ⟨pair.1, pair.2, palette, orphan⟩

/-! ## What is read -/

section

variable {α β : Type}

theorem forall₂_exists_iff {γ : Type} {writes : α → β → Prop} {f : β → γ} {xs : List α}
    {zs : List γ} :
    List.Forall₂ (fun x z => ∃ y, writes x y ∧ f y = z) xs zs ↔
      ∃ ys, List.Forall₂ writes xs ys ∧ ys.map f = zs := by
  constructor
  · intro related
    induction related with
    | nil => exact ⟨[], .nil, rfl⟩
    | cons head _ ih =>
      obtain ⟨y, written, rfl⟩ := head
      obtain ⟨ys, rest, rfl⟩ := ih
      exact ⟨y :: ys, .cons written rest, rfl⟩
  · rintro ⟨ys, related, rfl⟩
    rw [List.forall₂_map_right_iff]
    exact related.imp fun x y written => ⟨y, written, rfl⟩

end

namespace Document

variable {place : FieldPath} {value : Json}

theorem readArray_ok_iff {items : List Json} :
    readArray place value = .ok items ↔ value = .array items := by
  cases value <;> simp [readArray]

theorem readColor_ok_iff {color : Color} :
    readColor place value = .ok color ↔ WritesColor value color := by
  unfold WritesColor
  cases value with
  | string name =>
    by_cases empty : name = ""
    · simp only [readColor, String.isEmpty_iff, if_pos empty, Json.string.injEq]
      constructor
      · intro read
        cases read
      · rintro ⟨rfl, named⟩
        exact absurd empty named
    · simp only [readColor, String.isEmpty_iff, if_neg empty, Except.ok.injEq, Json.string.injEq]
      constructor
      · rintro rfl
        exact ⟨rfl, empty⟩
      · rintro ⟨rfl, -⟩
        rfl
  | _ => simp [readColor]

theorem readPalette_ok_iff {palette : List Color} :
    readPalette place value = .ok palette ↔ WritesPalette value palette := by
  unfold WritesPalette readPalette
  rw [bind_ok_iff]
  refine exists_congr fun items => and_congr readArray_ok_iff ?_
  refine (check_ok_iff ..).trans (and_congr (by simp) ?_)
  exact mapM_zipIdx_ok_iff (fun _ _ _ => readColor_ok_iff) 0

theorem readPair_ok_iff {pair : String × String} :
    readPair place value = .ok pair ↔ WritesPair value pair := by
  constructor
  · intro read
    unfold readPair at read
    split at read
    · next text =>
      split at read
      · next opening closing spelled =>
        cases read
        rw [← String.ofList_toList (s := text), spelled]
        exact .characters opening closing
      · cases read
    · cases read
      exact .texts ..
    · cases read
    · cases read
  · intro written
    cases written with
    | characters opening closing => simp [readPair]
    | texts opening closing => rfl

theorem readIndependentEntry_ok_iff {spec : PairSpec} :
    readIndependentEntry place value = .ok spec ↔ WritesSpec value spec := by
  unfold readIndependentEntry WritesSpec
  simp only [bind_ok_iff, readArray_ok_iff]
  constructor
  · rintro ⟨items, rfl, read⟩
    split at read
    · next pairItem paletteItem orphanItem =>
      simp only [bind_ok_iff, readPair_ok_iff, readPalette_ok_iff, readColor_ok_iff] at read
      obtain ⟨pair, writesPair, palette, writesPalette, orphan, writesOrphan, ⟨⟩⟩ := read
      exact ⟨pairItem, paletteItem, orphanItem, rfl, writesPair, writesPalette, writesOrphan⟩
    · cases read
  · rintro ⟨pairItem, paletteItem, orphanItem, rfl, writesPair, writesPalette, writesOrphan⟩
    refine ⟨_, rfl, ?_⟩
    simp only [bind_ok_iff, readPair_ok_iff, readPalette_ok_iff, readColor_ok_iff]
    exact ⟨_, writesPair, _, writesPalette, _, writesOrphan, rfl⟩

theorem readIndependent_ok_iff {specs : List PairSpec} :
    readIndependent value = .ok specs ↔ WritesIndependent value specs := by
  unfold readIndependent WritesIndependent
  rw [bind_ok_iff]
  refine exists_congr fun items => and_congr readArray_ok_iff ?_
  exact mapM_zipIdx_ok_iff (fun _ _ _ => readIndependentEntry_ok_iff) 0

theorem readPairs_ok_iff {palette : List Color} {orphan : Color} {items : List Json}
    {specs : List PairSpec} :
    (items.zipIdx.mapM fun (item, i) => do
        let (opening, closing) ← readPair (place.index i) item
        return (⟨opening, closing, palette, orphan⟩ : PairSpec)) = .ok specs ↔
      ∃ pairs, List.Forall₂ WritesPair items pairs ∧
        pairs.map (shareColors palette orphan) = specs := by
  rw [← forall₂_exists_iff]
  refine mapM_zipIdx_ok_iff (fun item i spec => ?_) 0
  rw [bind_ok_iff]
  exact exists_congr fun pair => and_congr readPair_ok_iff (Except.ok.injEq ..).to_iff

/-- The last two elements, and the elements before them. -/
theorem exists_eq_append {items : List Json} (long : 3 ≤ items.length) :
    ∃ pairs palette orphan, items = pairs ++ [palette, orphan] ∧ pairs ≠ [] := by
  rcases reversed : items.reverse with _ | ⟨orphan, _ | ⟨palette, _ | ⟨last, earlier⟩⟩⟩
  case cons.cons.cons =>
    refine ⟨(last :: earlier).reverse, palette, orphan, ?_, by simp⟩
    rw [← items.reverse_reverse, reversed]
    simp
  all_goals
    have length := congrArg List.length reversed
    simp only [List.length_reverse, List.length_cons, List.length_nil] at length
    omega

theorem readConsecutive_short {items : List Json} (short : items.length < 3) :
    readConsecutive (.array items) =
      .error (.tooFewElements ⟨consecutiveField, []⟩ 3 items.length) := by
  unfold readConsecutive
  refine bind_error_iff.mpr (.inr ⟨items, rfl, ?_⟩)
  dsimp only
  split
  · next reversed =>
    have length := congrArg List.length reversed
    simp only [List.length_reverse, List.length_cons] at length
    omega
  · rfl

theorem readConsecutive_long {pairs : List Json} (filled : pairs ≠ []) (palette orphan : Json) :
    readConsecutive (.array (pairs ++ [palette, orphan])) = (do
      let orphan ← readColor (.index ⟨consecutiveField, []⟩ (pairs.length + 1)) orphan
      let palette ← readPalette (.index ⟨consecutiveField, []⟩ pairs.length) palette
      pairs.zipIdx.mapM fun (item, i) => do
        let (opening, closing) ← readPair (.index ⟨consecutiveField, []⟩ i) item
        return { opening, closing, palette, orphan }) := by
  obtain ⟨earlier, last, rfl⟩ := pairs.eq_nil_or_concat'.resolve_left filled
  have reversed : (earlier ++ [last] ++ [palette, orphan]).reverse =
      orphan :: palette :: last :: earlier.reverse := by simp
  have pairs : (last :: earlier.reverse).reverse = earlier ++ [last] := by simp
  unfold readConsecutive
  dsimp only [readArray, bind, Except.bind]
  rw [reversed]
  dsimp only
  rw [pairs]

theorem readConsecutive_ok_iff {specs : List PairSpec} :
    readConsecutive value = .ok specs ↔
      ∃ pairs palette orphan, WritesConsecutive value pairs palette orphan ∧
        pairs.map (shareColors palette orphan) = specs := by
  unfold WritesConsecutive
  constructor
  · intro read
    obtain ⟨items, array, -⟩ := exists_of_bind_ok read
    obtain rfl := readArray_ok_iff.mp array
    by_cases long : 3 ≤ items.length
    · obtain ⟨items, paletteItem, orphanItem, rfl, filled⟩ := exists_eq_append long
      rw [readConsecutive_long filled] at read
      simp only [bind_ok_iff, readColor_ok_iff, readPalette_ok_iff, readPairs_ok_iff] at read
      obtain ⟨orphan, writesOrphan, palette, writesPalette, pairs, writesPairs, rfl⟩ := read
      exact ⟨pairs, palette, orphan, ⟨items, paletteItem, orphanItem, rfl, long, writesPairs,
        writesPalette, writesOrphan⟩, rfl⟩
    · rw [readConsecutive_short (Nat.lt_of_not_le long)] at read
      cases read
  · rintro ⟨pairs, palette, orphan, ⟨items, paletteItem, orphanItem, rfl, long, writesPairs,
      writesPalette, writesOrphan⟩, rfl⟩
    have filled : items ≠ [] := by
      rintro rfl
      simp at long
    rw [readConsecutive_long filled]
    simp only [bind_ok_iff, readColor_ok_iff, readPalette_ok_iff, readPairs_ok_iff]
    exact ⟨orphan, writesOrphan, palette, writesPalette, pairs, writesPairs, rfl⟩

end Document

end BracketColoring

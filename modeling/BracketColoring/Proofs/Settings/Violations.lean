import BracketColoring.Proofs.Settings.Acceptance

/-!
# What a settings error points at

An error of a settings document names a place, and what the error says is wrong is wrong at this
place (`errors_point_at_violations`). Each reader refuses the value that it was given or a value
inside it. The checks of a pair that come after the readers refuse its literals only, as the readers
have passed the colors already.
-/

namespace BracketColoring

/-- What a value is blamed for that is no bracket pair. -/
def PairShapeError.of : Json → PairShapeError
  | .string _ => .notTwoCharacters
  | .array _ => .notTwoStrings
  | _ => .neitherStringNorArray

/-- The place that an error names. -/
def SettingsError.place? : SettingsError → Option FieldPath
  | .notJson => none
  | .document _ => none
  | .notAnArray place => some place
  | .tooFewElements place _ _ => some place
  | .wrongElementCount place _ _ => some place
  | .noPairDefinitions place => some place
  | .invalidBracketPair place _ => some place
  | .emptyLiteral place => some place
  | .identicalLiterals place _ => some place
  | .emptyPalette place => some place
  | .invalidColor place => some place

namespace Document

/-- Whether only an array can stand for the part. -/
def Part.isArray : Part → Bool
  | .pairs | .specs | .spec | .palette => true
  | .pair | .color => false

/-- Where the selected list has the bracket pair of its `i`-th definition. -/
def pairPlace (d : Document) (i : Nat) : FieldPath :=
  match d.mode with
  | .consecutive => d.selectedPlace.index i
  | .independent => (d.selectedPlace.index i).index 0

/-- The `i`-th definition of the selected list has these literals. -/
def Defines (d : Document) (i : Nat) (pair : String × String) : Prop :=
  ∃ value, d.Holds (d.pairPlace i) .pair value ∧ WritesPair value pair

/-- What an error says of the document is so. -/
inductive Violates (d : Document) : SettingsError → Prop
  | notAnArray {place : FieldPath} {part : Part} {value : Json} (isArray : part.isArray = true)
      (holds : d.Holds place part value) (other : value.asArray? = none) :
      d.Violates (.notAnArray place)
  | tooFewElements {items : List Json} (holds : d.Holds consecutivePlace .pairs (.array items))
      (short : items.length < 3) : d.Violates (.tooFewElements consecutivePlace 3 items.length)
  | wrongElementCount {place : FieldPath} {items : List Json}
      (holds : d.Holds place .spec (.array items)) (count : items.length ≠ 3) :
      d.Violates (.wrongElementCount place 3 items.length)
  | invalidColor {place : FieldPath} {value : Json} (holds : d.Holds place .color value)
      (unwritten : ∀ color, ¬ WritesColor value color) : d.Violates (.invalidColor place)
  | emptyPalette {place : FieldPath} (holds : d.Holds place .palette (.array [])) :
      d.Violates (.emptyPalette place)
  | invalidBracketPair {place : FieldPath} {value : Json} (holds : d.Holds place .pair value)
      (unwritten : ∀ pair, ¬ WritesPair value pair) :
      d.Violates (.invalidBracketPair place (.of value))
  | emptyOpening {i : Nat} {closing : String} (defined : d.Defines i ("", closing)) :
      d.Violates (.emptyLiteral ((d.selectedPlace.index i).member "open"))
  | emptyClosing {i : Nat} {opening : String} (defined : d.Defines i (opening, "")) :
      d.Violates (.emptyLiteral ((d.selectedPlace.index i).member "close"))
  | identicalLiterals {i : Nat} {literal : String} (defined : d.Defines i (literal, literal)) :
      d.Violates (.identicalLiterals (d.selectedPlace.index i) literal)
  | noPairDefinitions (empty : d.at? d.selectedPlace = some (.array [])) :
      d.Violates (.noPairDefinitions d.selectedPlace)

variable {d : Document} {place : FieldPath} {value : Json} {e : SettingsError}

theorem plain_selectedPlace (d : Document) : d.selectedPlace.Plain := by
  unfold selectedPlace
  cases d.mode with
  | consecutive => exact (holds_consecutive d).expected.plain
  | independent => exact (holds_independent d).expected.plain

/-- An error of the document names a place, whose text can be read. -/
theorem Violates.exists_place (violates : d.Violates e) :
    ∃ place, e.place? = some place ∧ FieldPath.read? place.render = some place := by
  have definition (i : Nat) := (plain_selectedPlace d).index i
  suffices plain : ∃ place, e.place? = some place ∧ place.Plain by
    obtain ⟨place, named, plain⟩ := plain
    exact ⟨place, named, FieldPath.read?_render plain⟩
  cases violates with
  | notAnArray _ holds => exact ⟨_, rfl, holds.expected.plain⟩
  | tooFewElements holds => exact ⟨_, rfl, holds.expected.plain⟩
  | wrongElementCount holds => exact ⟨_, rfl, holds.expected.plain⟩
  | invalidColor holds => exact ⟨_, rfl, holds.expected.plain⟩
  | emptyPalette holds => exact ⟨_, rfl, holds.expected.plain⟩
  | invalidBracketPair holds => exact ⟨_, rfl, holds.expected.plain⟩
  | emptyOpening => exact ⟨_, rfl, (definition _).member (by decide +kernel)⟩
  | emptyClosing => exact ⟨_, rfl, (definition _).member (by decide +kernel)⟩
  | identicalLiterals => exact ⟨_, rfl, definition _⟩
  | noPairDefinitions => exact ⟨_, rfl, plain_selectedPlace d⟩

/-! ## What the readers refuse -/

theorem readArray_error (refused : readArray place value = .error e) :
    value.asArray? = none ∧ .notAnArray place = e := by
  cases value with
  | array items => cases refused
  | _ =>
    cases refused
    exact ⟨rfl, rfl⟩

theorem readColor_error (refused : readColor place value = .error e) :
    (∀ color, ¬ WritesColor value color) ∧ .invalidColor place = e := by
  constructor
  · intro color written
    rw [readColor_ok_iff.mpr written] at refused
    cases refused
  · unfold readColor at refused
    split at refused
    · split_ifs at refused
      cases refused
      rfl
    · cases refused
      rfl

theorem readPair_error (refused : readPair place value = .error e) :
    (∀ pair, ¬ WritesPair value pair) ∧ .invalidBracketPair place (.of value) = e := by
  constructor
  · intro pair written
    rw [readPair_ok_iff.mpr written] at refused
    cases refused
  · unfold readPair at refused
    split at refused
    · split at refused
      · cases refused
      · cases refused
        rfl
    · cases refused
    · cases refused
      rfl
    · next noString _ noArray =>
      cases refused
      cases value with
      | string text => exact absurd rfl (noString text)
      | array items => exact absurd rfl (noArray items)
      | _ => rfl

/-- Where an array is read first, the array is refused or what comes of its items. -/
theorem violates_or_items {α : Type} {part : Part} {rest : List Json → Except SettingsError α}
    (holds : d.Holds place part value) (isArray : part.isArray = true)
    (refused : readArray place value >>= rest = .error e) :
    d.Violates e ∨ ∃ items, value = .array items ∧ rest items = .error e := by
  rcases bind_error_iff.mp refused with notArray | ⟨items, array, refused⟩
  · obtain ⟨other, rfl⟩ := readArray_error notArray
    exact .inl (.notAnArray isArray holds other)
  · exact .inr ⟨items, readArray_ok_iff.mp array, refused⟩

theorem violates_of_readColor (holds : d.Holds place .color value)
    (refused : readColor place value = .error e) : d.Violates e := by
  obtain ⟨unwritten, rfl⟩ := readColor_error refused
  exact .invalidColor holds unwritten

theorem violates_of_readPair (holds : d.Holds place .pair value)
    (refused : readPair place value = .error e) : d.Violates e := by
  obtain ⟨unwritten, rfl⟩ := readPair_error refused
  exact .invalidBracketPair holds unwritten

theorem violates_of_readPalette (holds : d.Holds place .palette value)
    (refused : readPalette place value = .error e) : d.Violates e := by
  rcases violates_or_items holds rfl refused with violates | ⟨items, rfl, checked⟩
  · exact violates
  rcases check_error_iff.mp checked with ⟨empty, rfl⟩ | ⟨-, refused⟩
  · cases List.isEmpty_iff.mp empty
    exact .emptyPalette holds
  obtain ⟨item, i, present, refused⟩ := exists_of_mapM_zipIdx_error refused
  exact violates_of_readColor (holds.item present (.color i holds.expected)) refused

theorem violates_of_readConsecutive (refused : readConsecutive d.consecutivePairs = .error e) :
    d.Violates e := by
  have holds := holds_consecutive d
  rcases violates_or_items holds rfl refused with violates | ⟨items, list, -⟩
  · exact violates
  rw [list] at holds refused
  by_cases long : 3 ≤ items.length
  · obtain ⟨pairs, palette, orphan, rfl, filled⟩ := exists_eq_append long
    have length : (pairs ++ [palette, orphan]).length = pairs.length + 2 := by simp
    rw [readConsecutive_long filled] at refused
    -- The color stands at the last index, and the palette at the one before.
    rcases bind_error_iff.mp refused with refused | ⟨_, -, refused⟩
    · have expected : d.Expects (consecutivePlace.index (pairs.length + 1)) .color := by
        have last := Expects.sharedOrphan list long
        rwa [length] at last
      exact violates_of_readColor (holds.item (by simp) expected) refused
    rcases bind_error_iff.mp refused with refused | ⟨_, -, refused⟩
    · have expected : d.Expects (consecutivePlace.index pairs.length) .palette := by
        have last := Expects.sharedPalette list long
        rwa [length] at last
      exact violates_of_readPalette (holds.item (by simp) expected) refused
    obtain ⟨item, i, present, refused⟩ := exists_of_mapM_zipIdx_error refused
    have inside : i < pairs.length := (List.getElem?_eq_some_iff.mp present).1
    rcases bind_error_iff.mp refused with refused | ⟨_, -, impossible⟩
    · refine violates_of_readPair (holds.item ?_ (.sharedPair list ?_)) refused
      · rw [List.getElem?_append_left inside, present]
      · rw [length]
        exact Nat.add_lt_add_right inside 2
    · cases impossible
  · have short : items.length < 3 := Nat.lt_of_not_le long
    rw [readConsecutive_short short] at refused
    cases refused
    exact .tooFewElements holds short

theorem violates_of_readIndependentEntry (holds : d.Holds place .spec value)
    (refused : readIndependentEntry place value = .error e) : d.Violates e := by
  rcases violates_or_items holds rfl refused with violates | ⟨items, rfl, parts⟩
  · exact violates
  split at parts
  · rcases bind_error_iff.mp parts with refused | ⟨_, -, refused⟩
    · exact violates_of_readPair (holds.item rfl (.pair holds.expected)) refused
    rcases bind_error_iff.mp refused with refused | ⟨_, -, refused⟩
    · exact violates_of_readPalette (holds.item rfl (.palette holds.expected)) refused
    rcases bind_error_iff.mp refused with refused | ⟨_, -, impossible⟩
    · exact violates_of_readColor (holds.item rfl (.orphan holds.expected)) refused
    · cases impossible
  · next noTriple =>
    cases parts
    refine .wrongElementCount holds fun count => ?_
    obtain ⟨pair, palette, orphan, triple⟩ := List.length_eq_three.mp count
    exact noTriple pair palette orphan triple

theorem violates_of_readIndependent (refused : readIndependent d.independentPairs = .error e) :
    d.Violates e := by
  have holds := holds_independent d
  rcases violates_or_items holds rfl refused with violates | ⟨items, list, entries⟩
  · exact violates
  rw [list] at holds
  obtain ⟨item, i, present, refused⟩ := exists_of_mapM_zipIdx_error entries
  exact violates_of_readIndependentEntry (holds.item present (.spec i)) refused

/-! ## What the checks of the definitions refuse -/

/-- The specifications are those of the pairs that the selected list has, in its order. -/
theorem Means.defines {parts : Decoded} (written : d.Means parts) {i : Nat} {spec : PairSpec}
    (listed : (parts.chosen d.mode)[i]? = some spec) :
    d.Defines i (spec.opening, spec.closing) := by
  unfold Defines pairPlace selectedPlace
  cases mode : d.mode with
  | consecutive =>
    obtain ⟨items, palette, orphan, list, long, each, -⟩ := written.consecutive
    rw [mode, Decoded.chosen, List.getElem?_map] at listed
    obtain ⟨pair, present, rfl⟩ := Option.map_eq_some_iff.mp listed
    obtain ⟨inside, rfl⟩ := List.getElem?_eq_some_iff.mp present
    have inside' : i < items.length := each.length_eq ▸ inside
    have holds := holds_consecutive d
    rw [list] at holds
    refine ⟨items[i], holds.item ?_ (.sharedPair list ?_), each.get inside' inside⟩
    · rw [List.getElem?_append_left inside', List.getElem?_eq_getElem inside']
    · rw [List.length_append]
      exact Nat.add_lt_add_right inside' 2
  | independent =>
    obtain ⟨items, list, each⟩ := written.independent
    rw [mode, Decoded.chosen] at listed
    obtain ⟨inside, rfl⟩ := List.getElem?_eq_some_iff.mp listed
    have inside' : i < items.length := each.length_eq ▸ inside
    obtain ⟨pairItem, paletteItem, orphanItem, entry, writesPair, -⟩ := each.get inside' inside
    have holds := holds_independent d
    rw [list] at holds
    have triple : d.Holds (independentPlace.index i) .spec
        (.array [pairItem, paletteItem, orphanItem]) := by
      refine holds.item ?_ (.spec i)
      rw [List.getElem?_eq_getElem inside']
      exact congrArg some entry
    exact ⟨pairItem, triple.item rfl (.pair triple.expected), writesPair⟩

/-- Only the list of independent mode can be empty. -/
theorem Means.at?_selectedPlace {parts : Decoded} (written : d.Means parts)
    (empty : parts.chosen d.mode = []) : d.at? d.selectedPlace = some (.array []) := by
  unfold selectedPlace
  cases mode : d.mode with
  | consecutive =>
    obtain ⟨items, palette, orphan, -, long, each, -⟩ := written.consecutive
    rw [mode] at empty
    rw [List.map_eq_nil_iff.mp empty, List.forall₂_nil_right_iff] at each
    subst each
    simp at long
  | independent =>
    obtain ⟨items, list, each⟩ := written.independent
    rw [mode] at empty
    rw [show parts.specs = [] from empty, List.forall₂_nil_right_iff] at each
    rw [(holds_independent d).found, list, each]

end Document

/-- A pair whose colors pass can be refused because of its literals only. -/
theorem PairDefinition.ofSpec_error {place : FieldPath} {id : PairId} {spec : PairSpec}
    {e : SettingsError}
    (colored : (spec.palette ≠ [] ∧ ∀ c ∈ spec.palette, c.name ≠ "") ∧ spec.orphan.name ≠ "")
    (refused : ofSpec place id spec = .error e) :
    spec.opening = "" ∧ .emptyLiteral (place.member "open") = e ∨
      spec.closing = "" ∧ .emptyLiteral (place.member "close") = e ∨
        spec.opening = spec.closing ∧ .identicalLiterals place spec.opening = e := by
  have checked := refused
  unfold ofSpec at checked
  rcases check_error_iff.mp checked with ⟨empty, same⟩ | ⟨opening, checked⟩
  · exact .inl ⟨String.isEmpty_iff.mp empty, same⟩
  rcases check_error_iff.mp checked with ⟨empty, same⟩ | ⟨closing, checked⟩
  · exact .inr (.inl ⟨String.isEmpty_iff.mp empty, same⟩)
  rcases check_error_iff.mp checked with ⟨identical, same⟩ | ⟨distinct, -⟩
  · exact .inr (.inr ⟨identical, same⟩)
  have sound : spec.Sound := by
    obtain ⟨⟨filled, named⟩, orphan⟩ := colored
    exact ⟨mt String.isEmpty_iff.mpr opening, mt String.isEmpty_iff.mpr closing, distinct, filled,
      named, orphan⟩
  obtain ⟨accepted, made⟩ := exists_ofSpec_iff.mpr sound
  cases refused.symm.trans made

namespace Settings

open Document (Violates)

variable {d : Document} {e : SettingsError}

/-- An error of the list that is in use comes from one of its definitions, or there is none. -/
theorem ofSpecs_error {mode : ColorMode} {place : FieldPath} {specs : List PairSpec}
    (refused : ofSpecs mode place specs = .error e) :
    (specs = [] ∧ .noPairDefinitions place = e) ∨
      ∃ spec i, specs[i]? = some spec ∧ PairDefinition.ofSpec (place.index i) i spec = .error e := by
  rcases bind_error_iff.mp refused with refused | ⟨pairs, made, refused⟩
  · exact .inr (exists_of_mapM_zipIdx_error refused)
  · unfold ofDefinitions at refused
    split_ifs at refused with empty
    cases refused
    refine .inl ⟨?_, rfl⟩
    rw [List.isEmpty_iff.mp empty, mapM_ok_iff, List.forall₂_nil_right_iff] at made
    exact List.zipIdx_eq_nil_iff.mp made

theorem violates_of_ofSpecs {parts : Decoded} (written : d.Means parts)
    (refused : ofSpecs d.mode d.selectedPlace (parts.chosen d.mode) = .error e) :
    d.Violates e := by
  rcases ofSpecs_error refused with ⟨empty, rfl⟩ | ⟨spec, i, listed, refused⟩
  · exact .noPairDefinitions (written.at?_selectedPlace empty)
  have defined := written.defines listed
  have colored := written.colored (List.mem_of_getElem? listed)
  rcases PairDefinition.ofSpec_error colored refused with
    ⟨empty, rfl⟩ | ⟨empty, rfl⟩ | ⟨identical, rfl⟩
  · rw [empty] at defined
    exact .emptyOpening defined
  · rw [empty] at defined
    exact .emptyClosing defined
  · rw [← identical] at defined
    exact .identicalLiterals defined

theorem violates_of_ofDocument (refused : ofDocument d = .error e) : d.Violates e := by
  rcases bind_error_iff.mp refused with unread | ⟨consecutive, first, checked⟩
  · exact Document.violates_of_readConsecutive unread
  rcases bind_error_iff.mp checked with unread | ⟨independent, second, -⟩
  · exact Document.violates_of_readIndependent unread
  obtain ⟨parts, written⟩ := Document.exists_means_of_reads first second
  rw [written.ofDocument_eq] at refused
  rcases bind_error_iff.mp refused with refused | ⟨_, -, impossible⟩
  · exact violates_of_ofSpecs written refused
  · cases impossible

variable {value : Json}

/-- A document that is refused is refused with an error that names a place, in a text that can be
read, where the document is as the error says. -/
theorem errors_point_at_violations (read : Document.ofJson value = .ok d)
    (refused : ofJson value = .error e) :
    ∃ place, e.place? = some place ∧ FieldPath.read? place.render = some place ∧ d.Violates e := by
  rw [ofJson, read] at refused
  have violates := violates_of_ofDocument refused
  obtain ⟨place, named, readable⟩ := violates.exists_place
  exact ⟨place, named, readable, violates⟩

/-- A document with a pair of one character, a color without a name and a list that is none. -/
def faulty : Document where
  consecutivePairs := .array [.string "(", .string "[]", .array [.string "Gold", .string ""],
    .string "Red"]
  independentPairs := .string "[]"

def faultyJson : Json :=
  .object [(Document.consecutiveField, faulty.consecutivePairs),
    (Document.independentField, faulty.independentPairs)]

/-- The palette is the third of four elements, and its second color is read before the pairs. -/
theorem errors_point_at_unnamed_color :
    let place : FieldPath := ⟨Document.consecutiveField, [.index 2, .index 1]⟩
    Document.ofJson faultyJson = .ok faulty ∧
      ofJson faultyJson = .error (.invalidColor place) ∧
      place.render = "consecutivePairColors[2][1]" ∧
      FieldPath.read? place.render = some place ∧ faulty.Violates (.invalidColor place) := by
  intro place
  have read : Document.ofJson faultyJson = .ok faulty := rfl
  have refused : ofJson faultyJson = .error (.invalidColor place) := rfl
  obtain ⟨_, ⟨⟩, readable, violates⟩ := errors_point_at_violations read refused
  exact ⟨read, refused, by decide, readable, violates⟩

end Settings

end BracketColoring

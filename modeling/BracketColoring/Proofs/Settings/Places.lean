import BracketColoring.Settings.Document
import Mathlib.Data.List.Basic

/-!
# Places in a settings document

The text of a place can be read back (`read?_render`), as long as its names hold no bracket and no
dot. Its steps lead from one of the two lists of pairs to a value in it (`Document.at?`), and the
place alone says what the value stands for (`Document.Expects`). The list of consecutive mode ends
with its palette and its color, so it depends on the length of this list where they are.
-/

namespace BracketColoring

/-! ## The text of a place -/

namespace FieldPath

def startsStep (c : Char) : Bool := c = '[' ∨ c = '.'

/-- The characters before the first step, and those of each step. -/
def split : List Char → List Char × List (List Char)
  | [] => ([], [])
  | c :: text =>
    if startsStep c then ([], (c :: (split text).1) :: (split text).2)
    else (c :: (split text).1, (split text).2)

def readStep? : List Char → Option FieldStep
  | '[' :: text =>
    if text.getLast? = some ']' ∧ text.dropLast.all Char.isDigit then
      some (.index (Nat.ofDigitChars 10 text.dropLast 0))
    else none
  | '.' :: name => some (.member (String.ofList name))
  | _ => none

def read? (text : String) : Option FieldPath :=
  ((split text.toList).2.mapM readStep?).map (⟨String.ofList (split text.toList).1, ·⟩)

/-- No character of the text starts a step. -/
def Unbroken (text : List Char) : Prop := ∀ c ∈ text, startsStep c = false

instance (text : List Char) : Decidable (Unbroken text) :=
  List.decidableBAll (fun c => startsStep c = false) text

def PlainStep : FieldStep → Prop
  | .index _ => True
  | .member name => Unbroken name.toList

/-- No name in the place holds a character that starts a step. -/
structure Plain (p : FieldPath) : Prop where
  field : Unbroken p.field.toList
  steps : ∀ step ∈ p.steps, PlainStep step

theorem Plain.index {p : FieldPath} (plain : p.Plain) (i : Nat) : (p.index i).Plain where
  field := plain.field
  steps := by
    rw [FieldPath.index, List.forall_mem_append, List.forall_mem_singleton]
    exact ⟨plain.steps, trivial⟩

theorem Plain.member {p : FieldPath} (plain : p.Plain) {name : String}
    (unbroken : Unbroken name.toList) : (p.member name).Plain where
  field := plain.field
  steps := by
    rw [FieldPath.member, List.forall_mem_append, List.forall_mem_singleton]
    exact ⟨plain.steps, unbroken⟩

theorem split_append {unbroken text : List Char} (plain : Unbroken unbroken) :
    split (unbroken ++ text) = (unbroken ++ (split text).1, (split text).2) := by
  induction unbroken with
  | nil => rfl
  | cons c rest ih =>
    obtain ⟨inside, plain⟩ := List.forall_mem_cons.mp plain
    rw [List.cons_append, split, if_neg (by simp [inside]), ih plain]
    rfl

theorem isDigit_of_mem {i : Nat} {c : Char} (digit : c ∈ Nat.toDigits 10 i) : c.isDigit = true :=
  Nat.isDigit_of_mem_toDigits (by decide) (by decide) digit

theorem toList_renderStep_index (i : Nat) :
    (renderStep (.index i)).toList = '[' :: (Nat.toDigits 10 i ++ [']']) := by
  simp [renderStep, Nat.toString_eq_repr, Nat.toList_repr]

theorem unbroken_digits (i : Nat) : Unbroken (Nat.toDigits 10 i ++ [']']) := by
  intro c listed
  rcases List.mem_append.mp listed with digit | closing
  · have isDigit := isDigit_of_mem digit
    refine decide_eq_false ?_
    rintro (rfl | rfl)
    · exact absurd isDigit (by decide)
    · exact absurd isDigit (by decide)
  · cases List.mem_singleton.mp closing
    rfl

/-- A step is written as a character that starts it and others that start none. -/
theorem exists_renderStep {step : FieldStep} (plain : PlainStep step) :
    ∃ c rest, (renderStep step).toList = c :: rest ∧ startsStep c = true ∧ Unbroken rest := by
  cases step with
  | index i =>
    exact ⟨'[', Nat.toDigits 10 i ++ [']'], toList_renderStep_index i, rfl, unbroken_digits i⟩
  | member name =>
    refine ⟨'.', name.toList, ?_, rfl, plain⟩
    simp [renderStep]

theorem split_renderStep {step : FieldStep} (plain : PlainStep step) {text : List Char}
    (start : (split text).1 = []) :
    split ((renderStep step).toList ++ text) =
      ([], (renderStep step).toList :: (split text).2) := by
  obtain ⟨c, rest, written, starts, unbroken⟩ := exists_renderStep plain
  rw [written, List.cons_append, split, if_pos starts, split_append unbroken, start, List.append_nil]

theorem split_steps {steps : List FieldStep} (plain : ∀ step ∈ steps, PlainStep step) :
    split (steps.flatMap fun step => (renderStep step).toList) =
      ([], steps.map fun step => (renderStep step).toList) := by
  induction steps with
  | nil => rfl
  | cons step rest ih =>
    obtain ⟨first, plain⟩ := List.forall_mem_cons.mp plain
    rw [List.flatMap_cons, split_renderStep first (congrArg Prod.fst (ih plain)), ih plain]
    rfl

theorem readStep?_renderStep (step : FieldStep) : readStep? (renderStep step).toList = some step := by
  cases step with
  | index i =>
    have digits : (Nat.toDigits 10 i).all Char.isDigit = true :=
      List.all_eq_true.mpr fun _ => isDigit_of_mem
    rw [toList_renderStep_index, readStep?, List.dropLast_concat,
      if_pos ⟨List.getLast?_concat, digits⟩, Nat.ofDigitChars_ten_toDigits]
  | member name => simp [renderStep, readStep?]

theorem read?_render {p : FieldPath} (plain : p.Plain) : read? p.render = some p := by
  have text : p.render.toList =
      p.field.toList ++ p.steps.flatMap fun step => (renderStep step).toList := by
    rw [render, String.toList_append, String.toList_join, List.flatMap_map]
  have steps : (p.steps.map fun step => (renderStep step).toList).mapM readStep? = some p.steps := by
    have each : (readStep? ∘ fun step => (renderStep step).toList) = pure :=
      funext readStep?_renderStep
    rw [List.mapM_map, each]
    exact List.mapM_pure.trans (congrArg some (List.map_id' p.steps))
  rw [read?, text, split_append plain.field, split_steps plain.steps, steps, List.append_nil,
    String.ofList_toList]
  rfl

end FieldPath

/-! ## What stands at a place -/

/-- One step from a value into one of its parts. -/
def Json.step? : Json → FieldStep → Option Json
  | .array items, .index i => items[i]?
  | .object entries, .member name => entries.lookup name
  | _, _ => none

namespace Document

def list? (d : Document) (field : String) : Option Json :=
  if field = consecutiveField then some d.consecutivePairs
  else if field = independentField then some d.independentPairs
  else none

/-- The value that a place leads to. -/
def at? (d : Document) (place : FieldPath) : Option Json :=
  d.list? place.field >>= fun value => place.steps.foldlM Json.step? value

/-- The two lists of pairs, as places. -/
def consecutivePlace : FieldPath := ⟨consecutiveField, []⟩

def independentPlace : FieldPath := ⟨independentField, []⟩

/-- The list that the mode selects. -/
def selectedPlace (d : Document) : FieldPath :=
  match d.mode with
  | .consecutive => consecutivePlace
  | .independent => independentPlace

/-- What a value in the lists of pairs stands for. -/
inductive Part where
  /-- The list of consecutive mode. -/
  | pairs
  /-- The list of independent mode. -/
  | specs
  /-- An entry of the list of independent mode. -/
  | spec
  | pair
  | palette
  | color
deriving DecidableEq, Repr

/-- What the value at a place stands for. The list of consecutive mode holds pairs up to its last two
elements, a palette and a color; an entry of the list of independent mode holds one of each. -/
inductive Expects (d : Document) : FieldPath → Part → Prop
  | pairs : d.Expects consecutivePlace .pairs
  | sharedPair {items : List Json} {i : Nat} (list : d.consecutivePairs = .array items)
      (inside : i + 2 < items.length) : d.Expects (consecutivePlace.index i) .pair
  | sharedPalette {items : List Json} (list : d.consecutivePairs = .array items)
      (long : 3 ≤ items.length) : d.Expects (consecutivePlace.index (items.length - 2)) .palette
  | sharedOrphan {items : List Json} (list : d.consecutivePairs = .array items)
      (long : 3 ≤ items.length) : d.Expects (consecutivePlace.index (items.length - 1)) .color
  | specs : d.Expects independentPlace .specs
  | spec (i : Nat) : d.Expects (independentPlace.index i) .spec
  | pair {place : FieldPath} : d.Expects place .spec → d.Expects (place.index 0) .pair
  | palette {place : FieldPath} : d.Expects place .spec → d.Expects (place.index 1) .palette
  | orphan {place : FieldPath} : d.Expects place .spec → d.Expects (place.index 2) .color
  | color {place : FieldPath} (i : Nat) : d.Expects place .palette → d.Expects (place.index i) .color

/-- A value stands at a place, for a part of the document. -/
structure Holds (d : Document) (place : FieldPath) (part : Part) (value : Json) : Prop where
  expected : d.Expects place part
  found : d.at? place = some value

variable {d : Document} {place : FieldPath} {part : Part}

theorem at?_index (d : Document) (place : FieldPath) (i : Nat) :
    d.at? (place.index i) = d.at? place >>= fun value => value.step? (.index i) := by
  rw [at?, at?, FieldPath.index, bind_assoc]
  refine congrArg (d.list? place.field >>= ·) (funext fun value => ?_)
  rw [List.foldlM_append]
  refine congrArg (List.foldlM Json.step? value place.steps >>= ·) (funext fun part => ?_)
  rw [List.foldlM_cons]
  exact bind_pure _

theorem holds_consecutive (d : Document) : d.Holds consecutivePlace .pairs d.consecutivePairs :=
  ⟨.pairs, rfl⟩

theorem holds_independent (d : Document) : d.Holds independentPlace .specs d.independentPairs :=
  ⟨.specs, rfl⟩

/-- An item of an array that stands at a place. -/
theorem Holds.item {items : List Json} (list : d.Holds place part (.array items)) {i : Nat}
    {item : Json} (present : items[i]? = some item) {part' : Part}
    (expected : d.Expects (place.index i) part') : d.Holds (place.index i) part' item where
  expected := expected
  found := by
    rw [at?_index, list.found]
    exact present

theorem Expects.plain (expects : d.Expects place part) : place.Plain := by
  have consecutive : consecutivePlace.Plain := ⟨by decide +kernel, List.forall_mem_nil _⟩
  have independent : independentPlace.Plain := ⟨by decide +kernel, List.forall_mem_nil _⟩
  induction expects with
  | pairs => exact consecutive
  | specs => exact independent
  | sharedPair => exact consecutive.index _
  | sharedPalette => exact consecutive.index _
  | sharedOrphan => exact consecutive.index _
  | spec i => exact independent.index i
  | pair _ plain => exact plain.index 0
  | palette _ plain => exact plain.index 1
  | orphan _ plain => exact plain.index 2
  | color i _ plain => exact plain.index i

end Document

end BracketColoring

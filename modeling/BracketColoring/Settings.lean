import BracketColoring.Literals
import BracketColoring.Ordered
import BracketColoring.Settings.Error

/-!
# Settings

Settings hold at least one bracket pair, with ids in order, and say how brackets are colored. In
consecutive mode all pairs share a palette and one nesting depth; in independent mode each pair has
its own. `Settings.consecutive` and `Settings.independent` check their arguments in order and stop
at the first violation. That the pattern of the literals can be compiled is checked after all else, by
`Settings.setup`.
-/

namespace BracketColoring

/-- How colors are given to nesting levels. -/
inductive ColorMode where
  | consecutive
  | independent
deriving DecidableEq, Repr, Inhabited

def ColorMode.name : ColorMode → String
  | .consecutive => "Consecutive"
  | .independent => "Independent"

structure Settings where
  mode : ColorMode
  pairs : List PairDefinition
  /-- In consecutive mode, start each pair at its own place in the palette. -/
  uniqueOpening : Bool := false
  /-- In consecutive mode, step through the palette at every opening bracket. -/
  cycleOpenings : Bool := false
  /-- Milliseconds to wait after an edit; zero does not wait. -/
  debounce : Nat := 200
  excluded : List String := []
deriving DecidableEq, Repr, Inhabited

/-- An opening and a closing literal with colors that are not checked yet. -/
structure PairSpec where
  opening : String
  closing : String
  palette : List Color
  orphan : Color
deriving DecidableEq, Repr, Inhabited

/-- Names the first color without a name, by its index. -/
def checkColors (place : FieldPath) (colors : List Color) : Except SettingsError Unit :=
  match colors.findIdx? (fun c => c.name.isEmpty) with
  | some i => .error (.invalidColor (place.index i))
  | none => .ok ()

/-- Checks one pair: its literals, then its palette, then its color for lone brackets. -/
def PairDefinition.ofSpec (place : FieldPath) (id : PairId) (spec : PairSpec) :
    Except SettingsError PairDefinition := do
  if spec.opening.isEmpty then throw (.emptyLiteral (place.member "open"))
  if spec.closing.isEmpty then throw (.emptyLiteral (place.member "close"))
  if spec.opening = spec.closing then throw (.identicalLiterals place spec.opening)
  match Palette.ofList? spec.palette with
  | none => throw (.emptyPalette (place.member "palette"))
  | some palette =>
    checkColors (place.member "palette") spec.palette
    if spec.orphan.name.isEmpty then throw (.invalidColor (place.member "orphan"))
    return { id, opening := spec.opening, closing := spec.closing, palette, orphan := spec.orphan }

namespace Settings

/-- Settings of checked pairs, of which there must be one. -/
def ofDefinitions (mode : ColorMode) (place : FieldPath) (pairs : List PairDefinition) :
    Except SettingsError Settings :=
  if pairs.isEmpty then .error (.noPairDefinitions place) else .ok { mode, pairs }

/-- Settings of pairs, checked in order; `place` is the list that they stand in. -/
def ofSpecs (mode : ColorMode) (place : FieldPath) (specs : List PairSpec) :
    Except SettingsError Settings := do
  let pairs ← specs.zipIdx.mapM fun (spec, i) => PairDefinition.ofSpec (place.index i) i spec
  ofDefinitions mode place pairs

/-- A palette that was given as a list: it is not empty and its colors have names. -/
def checkPalette (place : FieldPath) (palette : List Color) : Except SettingsError Unit :=
  if palette.isEmpty then .error (.emptyPalette place) else checkColors place palette

/-- Settings in which all pairs share a palette. -/
def consecutive (pairs : List (String × String)) (palette : List Color) (orphan : Color) :
    Except SettingsError Settings := do
  checkPalette ⟨"palette", []⟩ palette
  if orphan.name.isEmpty then throw (.invalidColor ⟨"orphan", []⟩)
  ofSpecs .consecutive ⟨"pairs", []⟩ (pairs.map fun (opening, closing) =>
    ⟨opening, closing, palette, orphan⟩)

/-- Settings in which each pair has its own palette. -/
def independent (specs : List PairSpec) : Except SettingsError Settings := do
  let place : FieldPath := ⟨"pairs", []⟩
  let pairs ← specs.zipIdx.mapM fun (spec, i) => do
    checkPalette ((place.index i).member "palette") spec.palette
    PairDefinition.ofSpec (place.index i) i spec
  ofDefinitions .independent place pairs

def pair? (s : Settings) (id : PairId) : Option PairDefinition := s.pairs[id]?

def literals (s : Settings) : Literals := Literals.ofPairs s.pairs

/-- Every color that the settings can give to a bracket, in increasing order. -/
def colors (s : Settings) : List Color := Ordered.distinct (s.pairs.flatMap PairDefinition.colors)

/-- Whether documents of a language are left alone. -/
def isExcluded (s : Settings) (language : String) : Bool := s.excluded.contains language

end Settings

end BracketColoring

import BracketColoring.Settings
import BracketColoring.Json.Reader

/-!
# Settings documents

A settings document is a JSON object with known members, or an array that gives them by position.
`Document.ofJson` reads it without looking into the two lists of pairs; `Settings.ofDocument` checks
both lists, whichever of them is in use, and builds the settings from the one that is.
-/

namespace BracketColoring

open Json (Shape)

namespace Document

def consecutiveField : String := "consecutivePairColors"

def independentField : String := "independentPairColors"

/-- The palette of the pairs that a document leaves out. -/
def defaultPalette : Json := .array [.string "Gold", .string "Orchid", .string "LightSkyBlue"]

def defaultConsecutive : Json :=
  .array [.string "()", .string "[]", .string "\x7b\x7d", defaultPalette, .string "Red"]

def defaultIndependent : Json :=
  .array [.array [.string "()", defaultPalette, .string "Red"],
    .array [.string "[]", defaultPalette, .string "Red"],
    .array [.string "\x7b\x7d", defaultPalette, .string "Red"]]

end Document

/-- The members of a settings document. The two lists of pairs can hold any value. -/
structure Document where
  mode : ColorMode := .consecutive
  consecutivePairs : Json := Document.defaultConsecutive
  independentPairs : Json := Document.defaultIndependent
  uniqueOpening : Bool := false
  cycleOpenings : Bool := false
  debounce : Nat := 200
  excluded : List String := []
deriving Inhabited

namespace Document

/-! ## Members -/

def readBool : Json → Except DocumentError Bool
  | .bool b => .ok b
  | v => .error (.invalidType v.shape .boolean)

def readCount : Json → Except DocumentError Nat
  | .number (.integer i) => if i < 0 then .error (.negative i) else .ok i.toNat
  | v => .error (.invalidType v.shape .unsigned)

def readString : Json → Except DocumentError String
  | .string s => .ok s
  | v => .error (.invalidType v.shape .string)

def readStrings : Json → Except DocumentError (List String)
  | .array items => items.mapM readString
  | v => .error (.invalidType v.shape .sequence)

def modeOfName (name : String) : Except DocumentError ColorMode :=
  if name = "Consecutive" then .ok .consecutive
  else if name = "Independent" then .ok .independent
  else .error (.unknownMode name)

/-- A mode is its name, or an object with its name as the only key and nothing as the value. -/
def readMode : Json → Except DocumentError ColorMode
  | .string name => modeOfName name
  | .object [(name, value)] => do
    let mode ← modeOfName name
    match value with
    | .null => return mode
    | v => throw (.invalidType v.shape .unit)
  | .object _ => .error .modeKeys
  | v => .error (.invalidType v.shape .modeNameOrMap)

/-- Sets one member; members of other names are ignored. -/
def setMember (d : Document) (name : String) (value : Json) : Except DocumentError Document :=
  if name = "colorMode" then do return { d with mode := ← readMode value }
  else if name = consecutiveField then .ok { d with consecutivePairs := value }
  else if name = independentField then .ok { d with independentPairs := value }
  else if name = "forceUniqueOpeningColor" then
    do return { d with uniqueOpening := ← readBool value }
  else if name = "forceIterationColorCycle" then
    do return { d with cycleOpenings := ← readBool value }
  else if name = "timeOut" then do return { d with debounce := ← readCount value }
  else if name = "excludedLanguages" then do return { d with excluded := ← readStrings value }
  else .ok d

def setMembers (d : Document) (members : List (String × Json)) : Except DocumentError Document :=
  members.foldlM (fun d m => d.setMember m.1 m.2) d

/-- The members in the order in which an array gives them. -/
def memberNames : List String :=
  ["colorMode", consecutiveField, independentField, "forceUniqueOpeningColor",
    "forceIterationColorCycle", "timeOut", "excludedLanguages"]

def ofJson : Json → Except DocumentError Document
  | .object entries => setMembers {} entries
  | .array items => do
    let d ← setMembers {} (memberNames.zip items)
    if memberNames.length < items.length then throw (.tooManyElements items.length)
    return d
  | v => .error (.invalidType v.shape .document)

/-! ## Lists of pairs -/

def readArray (place : FieldPath) : Json → Except SettingsError (List Json)
  | .array items => .ok items
  | _ => .error (.notAnArray place)

def readColor (place : FieldPath) : Json → Except SettingsError Color
  | .string name => if name.isEmpty then .error (.invalidColor place) else .ok ⟨name⟩
  | _ => .error (.invalidColor place)

def readPalette (place : FieldPath) (value : Json) : Except SettingsError (List Color) := do
  let items ← readArray place value
  if items.isEmpty then throw (.emptyPalette place)
  items.zipIdx.mapM fun (item, i) => readColor (place.index i) item

/-- A pair is a text of two characters, or an array of two texts. -/
def readPair (place : FieldPath) : Json → Except SettingsError (String × String)
  | .string text =>
    match text.toList with
    | [opening, closing] => .ok (String.singleton opening, String.singleton closing)
    | _ => .error (.invalidBracketPair place .notTwoCharacters)
  | .array [.string opening, .string closing] => .ok (opening, closing)
  | .array _ => .error (.invalidBracketPair place .notTwoStrings)
  | _ => .error (.invalidBracketPair place .neitherStringNorArray)

/-- The list of consecutive mode: pairs, then their palette, then the color of lone brackets. The
color is checked first, then the palette, then the pairs. -/
def readConsecutive (value : Json) : Except SettingsError (List PairSpec) := do
  let place : FieldPath := ⟨consecutiveField, []⟩
  let items ← readArray place value
  match items.reverse with
  | orphan :: palette :: last :: earlier =>
    let pairs := (last :: earlier).reverse
    let orphan ← readColor (place.index (pairs.length + 1)) orphan
    let palette ← readPalette (place.index pairs.length) palette
    pairs.zipIdx.mapM fun (item, i) => do
      let (opening, closing) ← readPair (place.index i) item
      return { opening, closing, palette, orphan }
  | _ => throw (.tooFewElements place 3 items.length)

/-- One entry of the list of independent mode: a pair, its palette and its color for lone
brackets. -/
def readIndependentEntry (place : FieldPath) (value : Json) : Except SettingsError PairSpec := do
  match ← readArray place value with
  | [pair, palette, orphan] =>
    let (opening, closing) ← readPair (place.index 0) pair
    let palette ← readPalette (place.index 1) palette
    let orphan ← readColor (place.index 2) orphan
    return { opening, closing, palette, orphan }
  | items => throw (.wrongElementCount place 3 items.length)

def readIndependent (value : Json) : Except SettingsError (List PairSpec) := do
  let place : FieldPath := ⟨independentField, []⟩
  let items ← readArray place value
  items.zipIdx.mapM fun (item, i) => readIndependentEntry (place.index i) item

end Document

namespace Settings

/-- The settings of a document. Both lists of pairs are read, then the one in use is checked. -/
def ofDocument (d : Document) : Except SettingsError Settings := do
  let consecutive ← Document.readConsecutive d.consecutivePairs
  let independent ← Document.readIndependent d.independentPairs
  let settings ←
    match d.mode with
    | .consecutive => ofSpecs .consecutive ⟨Document.consecutiveField, []⟩ consecutive
    | .independent => ofSpecs .independent ⟨Document.independentField, []⟩ independent
  return { settings with
    uniqueOpening := d.uniqueOpening
    cycleOpenings := d.cycleOpenings
    debounce := d.debounce
    excluded := d.excluded }

def ofJson (value : Json) : Except SettingsError Settings :=
  match Document.ofJson value with
  | .ok d => ofDocument d
  | .error cause => .error (.document cause)

def ofText (text : String) : Except SettingsError Settings :=
  match Json.read? text with
  | some value => ofJson value
  | none => .error .notJson

end Settings

end BracketColoring

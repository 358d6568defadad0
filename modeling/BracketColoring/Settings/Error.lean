import BracketColoring.Json

/-!
# Why settings are refused

Every cause names the place of the offending value: a field with the indices and members that lead
into it, written as `consecutivePairColors[3][1]` or `pairs[0].open`. An engine that refuses a pattern
names no place; this cause is one of `SetupError`.
-/

namespace BracketColoring

/-- A step from a value into one of its parts. -/
inductive FieldStep where
  | index (i : Nat)
  | member (name : String)
deriving DecidableEq, Repr, Inhabited

/-- A place in the settings: a field and the steps into its value. -/
structure FieldPath where
  field : String
  steps : List FieldStep := []
deriving DecidableEq, Repr, Inhabited

namespace FieldPath

def index (p : FieldPath) (i : Nat) : FieldPath := { p with steps := p.steps ++ [.index i] }

def member (p : FieldPath) (name : String) : FieldPath :=
  { p with steps := p.steps ++ [.member name] }

def renderStep : FieldStep → String
  | .index i => "[" ++ toString i ++ "]"
  | .member name => "." ++ name

def render (p : FieldPath) : String := p.field ++ String.join (p.steps.map renderStep)

end FieldPath

/-- What the fields of a settings document are made of. -/
inductive Expectation where
  | document
  | modeNameOrMap
  | boolean
  | unsigned
  | sequence
  | string
  | unit
deriving DecidableEq, Repr, Inhabited

def Expectation.describe : Expectation → String
  | .document => "struct SettingsDocument"
  | .modeNameOrMap => "string or map"
  | .boolean => "a boolean"
  | .unsigned => "u64"
  | .sequence => "a sequence"
  | .string => "a string"
  | .unit => "unit"

/-- Why a JSON value is no settings document. -/
inductive DocumentError where
  /-- A value of another kind than the field holds. -/
  | invalidType (found : Json.Shape) (expected : Expectation)
  /-- An integer below zero where a count is expected. -/
  | negative (value : Int)
  /-- A mode given as an object with no key or several. -/
  | modeKeys
  /-- A mode of no known name. -/
  | unknownMode (name : String)
  /-- A document given as an array of too many elements. -/
  | tooManyElements (count : Nat)
deriving DecidableEq, Repr, Inhabited

def DocumentError.message : DocumentError → String
  | .invalidType found expected =>
    "invalid type: " ++ found.describe ++ ", expected " ++ expected.describe
  | .negative value =>
    "invalid value: " ++ (Json.Shape.number (.integer value)).describe ++ ", expected "
      ++ Expectation.unsigned.describe
  | .modeKeys => "invalid value: map, expected map with a single key"
  | .unknownMode name =>
    "unknown variant `" ++ name ++ "`, expected `Consecutive` or `Independent`"
  | .tooManyElements count =>
    "invalid length " ++ toString count ++ ", expected fewer elements in array"

/-- Why a value is no bracket pair. -/
inductive PairShapeError where
  | notTwoCharacters
  | notTwoStrings
  | neitherStringNorArray
deriving DecidableEq, Repr, Inhabited

def PairShapeError.message : PairShapeError → String
  | .notTwoCharacters => "a string pair must be exactly two characters"
  | .notTwoStrings => "an array pair must be two strings: [open, close]"
  | .neitherStringNorArray => "expected a two-character string or an [open, close] array"

/-- Why settings are refused. -/
inductive SettingsError where
  | notJson
  | document (cause : DocumentError)
  | notAnArray (place : FieldPath)
  | tooFewElements (place : FieldPath) (expected actual : Nat)
  | wrongElementCount (place : FieldPath) (expected actual : Nat)
  | noPairDefinitions (place : FieldPath)
  | invalidBracketPair (place : FieldPath) (cause : PairShapeError)
  | emptyLiteral (place : FieldPath)
  | identicalLiterals (place : FieldPath) (literal : String)
  | emptyPalette (place : FieldPath)
  | invalidColor (place : FieldPath)
deriving DecidableEq, Repr, Inhabited

def SettingsError.message : SettingsError → String
  | .notJson => "settings JSON error: not a JSON text"
  | .document cause => "settings JSON error: " ++ cause.message
  | .notAnArray place => place.render ++ " is not an array"
  | .tooFewElements place expected actual =>
    place.render ++ " expected at least " ++ toString expected ++ " elements, actual: "
      ++ toString actual
  | .wrongElementCount place expected actual =>
    place.render ++ " expected exactly " ++ toString expected ++ " elements, actual: "
      ++ toString actual
  | .noPairDefinitions place => place.render ++ " defines no bracket pairs"
  | .invalidBracketPair place cause =>
    place.render ++ " is not a bracket pair: " ++ cause.message
  | .emptyLiteral place => place.render ++ " is an empty bracket literal"
  | .identicalLiterals place literal =>
    place.render ++ " uses the same literal '" ++ literal ++ "' to open and close"
  | .emptyPalette place => place.render ++ " is an empty palette"
  | .invalidColor place => place.render ++ " is not a color string"

end BracketColoring

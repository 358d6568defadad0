import BracketColoring.Number.Shortest
import BracketColoring.Ordered
import BracketColoring.Text.Quoted

/-!
# JSON values

Numbers keep the kind they were written with: an integer written without fraction or exponent that
fits 64 bits, or a double. Objects hold each key once, in increasing order.
-/

namespace BracketColoring

inductive Json.Number where
  | integer (value : Int)
  | real (value : Binary64)
deriving DecidableEq, Repr, Inhabited

inductive Json where
  | null
  | bool (value : Bool)
  | number (value : Json.Number)
  | string (value : String)
  | array (items : List Json)
  | object (entries : List (String × Json))
deriving Inhabited

namespace Json

/-- What a value looks like without its parts: an error names a misplaced value by it. -/
inductive Shape where
  | null
  | bool (value : Bool)
  | number (value : Number)
  | string (value : String)
  | sequence
  | map
deriving DecidableEq, Repr, Inhabited

def shape : Json → Shape
  | .null => .null
  | .bool b => .bool b
  | .number n => .number n
  | .string s => .string s
  | .array _ => .sequence
  | .object _ => .map

/-- Doubles are positional from 10^-5 up to below 10^16, and have an exponent elsewhere. -/
def realFormat : RealFormat := ⟨-5, 15⟩

/-- The name of a shape in a message. -/
def Shape.describe : Shape → String
  | .null => "null"
  | .bool b => "boolean `" ++ (if b then "true" else "false") ++ "`"
  | .number (.integer i) => "integer `" ++ toString i ++ "`"
  | .number (.real x) => "floating point `" ++ realFormat.write x ++ "`"
  | .string s => "string " ++ Text.quote s
  | .sequence => "sequence"
  | .map => "map"

def asArray? : Json → Option (List Json)
  | .array items => some items
  | _ => none

def asString? : Json → Option String
  | .string s => some s
  | _ => none

def ofMembers (members : List (String × Json)) : Json := .object (Ordered.table members)

end Json

end BracketColoring

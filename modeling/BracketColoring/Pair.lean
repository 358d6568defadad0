/-!
# Bracket pairs

A bracket pair is an opening and a closing literal with the colors for its brackets: a palette that
is cycled through, never empty, and one color for brackets that stay alone.
-/

namespace BracketColoring

/-- The name of a color; what it looks like is the renderer's business. -/
structure Color where
  name : String
deriving DecidableEq, Repr, Inhabited

namespace Color

instance : LT Color := ⟨fun a b => a.name < b.name⟩

instance (a b : Color) : Decidable (a < b) := inferInstanceAs (Decidable (a.name < b.name))

end Color

/-- A non-empty list of colors. -/
structure Palette where
  first : Color
  rest : List Color
deriving DecidableEq, Repr, Inhabited

namespace Palette

def toList (p : Palette) : List Color := p.first :: p.rest

def size (p : Palette) : Nat := p.rest.length + 1

theorem length_toList (p : Palette) : p.toList.length = p.size := rfl

theorem size_pos (p : Palette) : 0 < p.size := Nat.succ_pos _

def ofList? : List Color → Option Palette
  | [] => none
  | c :: rest => some ⟨c, rest⟩

/-- The color at an index, counted round and round. -/
def colorAt (p : Palette) (index : Nat) : Color :=
  p.toList.get ⟨index % p.size, Nat.mod_lt _ p.size_pos⟩

end Palette

/-- Whether a literal opens or closes its pair. -/
inductive Role where
  | opening
  | closing
deriving DecidableEq, Repr, Inhabited

/-- The place of a pair among the pairs of its settings. -/
abbrev PairId := Nat

/-- An opening and a closing literal with their colors. -/
structure PairDefinition where
  id : PairId
  opening : String
  closing : String
  palette : Palette
  orphan : Color
deriving DecidableEq, Repr, Inhabited

namespace PairDefinition

def literal (d : PairDefinition) : Role → String
  | .opening => d.opening
  | .closing => d.closing

def colorAt (d : PairDefinition) (index : Nat) : Color := d.palette.colorAt index

def colors (d : PairDefinition) : List Color := d.palette.toList ++ [d.orphan]

end PairDefinition

end BracketColoring

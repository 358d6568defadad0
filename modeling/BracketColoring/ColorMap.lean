import BracketColoring.Matching

/-!
# Color maps

A color map lists for each color the ranges to paint with it: the colors in increasing order, the
ranges of each in document order. A map can be kept up to date while occurrences are recorded one
after another, or made at once from ranges that were painted in any order.
-/

namespace BracketColoring

structure ColorMap where
  entries : List (Color × List Range)
deriving DecidableEq, Repr, Inhabited

namespace ColorMap

/-- A map in which the given colors paint nothing. -/
def blank (colors : List Color) : ColorMap := ⟨(Ordered.distinct colors).map fun c => (c, [])⟩

/-- Nothing painted yet, under given settings. -/
def forSettings (s : Settings) : ColorMap := blank s.colors

/-- The ranges that a list of painted ranges gives to one color, in the order of the list. -/
def rangesOf (paint : List (Color × Range)) (c : Color) : List Range :=
  (paint.filter fun p => p.1 = c).map (·.2)

/-- The ranges in document order. -/
def inOrder (rs : List Range) : List Range := Ordered.sort (fun a b => decide (a ≤ b)) rs

/-- Groups painted ranges by color, with the given colors in any case, in document order. -/
def ofPaint (colors : List Color) (paint : List (Color × Range)) : ColorMap :=
  ⟨(Ordered.distinct (colors ++ paint.map (·.1))).map fun c => (c, inOrder (rangesOf paint c))⟩

def colors (m : ColorMap) : List Color := m.entries.map (·.1)

def get? (m : ColorMap) (c : Color) : Option (List Range) :=
  (m.entries.find? fun e => e.1 = c).map (·.2)

/-- The ranges of a color; none if the map does not have it. -/
def ranges (m : ColorMap) (c : Color) : List Range := (m.get? c).getD []

/-- The color that a range is painted with. -/
def colorOf? (m : ColorMap) (r : Range) : Option Color :=
  (m.entries.find? fun e => Ordered.search r e.2).map (·.1)

/-- Adds a range at the end of the list of its color. -/
def record (m : ColorMap) (c : Color) (r : Range) : ColorMap :=
  ⟨Ordered.insertEntry c (m.ranges c ++ [r]) m.entries⟩

/-- Adds the ranges of recorded occurrences in turn. -/
def recordAll (m : ColorMap) (recorded : List ColoredOccurrence) : ColorMap :=
  recorded.foldl (fun m c => m.record c.color c.occurrence.range) m

def size (m : ColorMap) : Nat := m.entries.length

def isEmpty (m : ColorMap) : Bool := m.entries.isEmpty

def rangeCount (m : ColorMap) : Nat := (m.entries.map fun e => e.2.length).foldr (· + ·) 0

end ColorMap

end BracketColoring

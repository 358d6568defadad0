import BracketColoring.LineCache

/-!
# Matched pairs

The pair index of a document lists its matched pairs by the place of their openings, and its lone
brackets by place. It answers which pair surrounds a position and which pair a bracket belongs to.
-/

namespace BracketColoring

structure BracketPair where
  pair : PairId
  opening : Range
  closing : Range
  color : Color
deriving DecidableEq, Repr, Inhabited

namespace BracketPair

/-- From the start of the opening to the end of the closing. -/
def span (p : BracketPair) : Range := ⟨p.opening.start, p.closing.stop⟩

def contains (p : BracketPair) (pos : Position) : Bool := p.span.contains pos

end BracketPair

structure OrphanBracket where
  pair : PairId
  range : Range
  role : Role
  color : Color
deriving DecidableEq, Repr, Inhabited

/-- The matched pairs and the lone brackets of a document. -/
structure PairIndex where
  pairs : List BracketPair
  orphans : List OrphanBracket
deriving DecidableEq, Repr, Inhabited

namespace PairIndex

def empty : PairIndex := ⟨[], []⟩

/-- The color recorded for an opening, of which the last counts; `openings` lists them latest
first. -/
def openingColor (openings : List (Range × Color)) (r : Range) (default : Color) : Color :=
  ((openings.find? fun w => w.1 = r).map (·.2)).getD default

/-- The pairs of a list of occurrences, by closing. `openings` holds the openings before it. -/
def matchedPairs (openings : List (Range × Color)) : List ColoredOccurrence → List BracketPair
  | [] => []
  | o :: rest =>
    let r := o.occurrence.range
    match o.status with
    | .opened => matchedPairs ((r, o.color) :: openings) rest
    | .matched opening =>
      ⟨o.occurrence.pair, opening, r, openingColor openings opening o.color⟩
        :: matchedPairs openings rest
    | .orphan => matchedPairs openings rest

def loneClosings (os : List ColoredOccurrence) : List OrphanBracket :=
  (os.filter fun o => o.status = .orphan).map fun o =>
    ⟨o.occurrence.pair, o.occurrence.range, o.occurrence.role, o.color⟩

def loneOpenings (unclosed : List (StackEntry × PairDefinition)) : List OrphanBracket :=
  unclosed.map fun (e, d) => ⟨e.pair, e.opening, .opening, d.orphan⟩

/-- Puts pairs and lone brackets in the order of their places. -/
def inOrder (pairs : List BracketPair) (orphans : List OrphanBracket) : PairIndex :=
  ⟨Ordered.sort (fun a b => decide (a.opening ≤ b.opening)) pairs,
    Ordered.sort (fun a b => decide (a.range ≤ b.range)) orphans⟩

def size (x : PairIndex) : Nat := x.pairs.length

def isEmpty (x : PairIndex) : Bool := x.pairs.isEmpty

/-- Of two pairs around a position, the one that starts later; of two that start at one place, the
second. -/
def inner (best : Option BracketPair) (p : BracketPair) : Option BracketPair :=
  match best with
  | some b => if b.opening.start ≤ p.opening.start then some p else some b
  | none => some p

/-- The innermost pair around a position, of the pairs that come before it in the index. -/
def enclosing? (x : PairIndex) (pos : Position) : Option BracketPair :=
  ((x.pairs.takeWhile fun p => decide (p.opening.start ≤ pos)).filter (·.contains pos)).foldl
    inner none

/-- The first pair of which a range is the opening or the closing. -/
def matching? (x : PairIndex) (r : Range) : Option BracketPair :=
  x.pairs.find? fun p => decide (p.opening = r) || decide (p.closing = r)

end PairIndex

def LineCache.pairIndex (s : Settings) (c : LineCache) : PairIndex :=
  PairIndex.inOrder (PairIndex.matchedPairs [] c.occurrences)
    (PairIndex.loneClosings c.occurrences ++ PairIndex.loneOpenings (c.unclosed s))

end BracketColoring

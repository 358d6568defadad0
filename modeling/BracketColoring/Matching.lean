import BracketColoring.Occurrence
import BracketColoring.Settings

/-!
# Matching brackets

Occurrences are matched in document order against the openings that wait for their closings. With a
shared stack a closing matches the innermost opening if that is of the same pair, and otherwise stays
alone and leaves the stack as it is; with a stack per pair it matches the innermost opening of its
own pair. An opening takes its color from its depth, or from the number of openings before it; a
closing takes the color of its opening.
-/

namespace BracketColoring

/-- An opening that waits for its closing. -/
structure StackEntry where
  pair : PairId
  color : Color
  opening : Range
deriving DecidableEq, Repr, Inhabited

/-- The waiting openings, innermost first: of all pairs together, with the number of openings so
far, or of each pair on its own. -/
inductive MatchStack where
  | shared (entries : List StackEntry) (opened : Nat)
  | perPair (piles : List (List StackEntry))
deriving DecidableEq, Repr, Inhabited

namespace MatchStack

/-- The stack at the start of a document. -/
def empty (mode : ColorMode) (pairCount : Nat) : MatchStack :=
  match mode with
  | .consecutive => .shared [] 0
  | .independent => .perPair (List.replicate pairCount [])

def start (s : Settings) : MatchStack := empty s.mode s.pairs.length

/-- The waiting openings from the outermost to the innermost, pair by pair if they are apart. -/
def entries : MatchStack → List StackEntry
  | .shared es _ => es.reverse
  | .perPair piles => piles.flatMap List.reverse

def size : MatchStack → Nat
  | .shared es _ => es.length
  | .perPair piles => (piles.map List.length).foldr (· + ·) 0

def isEmpty : MatchStack → Bool
  | .shared es _ => es.isEmpty
  | .perPair piles => piles.all List.isEmpty

end MatchStack

/-- What became of an occurrence when it was met. -/
inductive Status where
  /-- An opening, now waiting. -/
  | opened
  /-- A closing of the given opening. -/
  | matched (opening : Range)
  /-- A closing without an opening. -/
  | orphan
deriving DecidableEq, Repr, Inhabited

structure ColoredOccurrence where
  occurrence : Occurrence
  color : Color
  status : Status
deriving DecidableEq, Repr, Inhabited

namespace Settings

/-- The color of an opening in consecutive mode, where `depth` openings wait and `opened` came
before. -/
def sharedColor (s : Settings) (d : PairDefinition) (depth opened : Nat) : Color :=
  d.colorAt ((if s.cycleOpenings then opened else depth) + (if s.uniqueOpening then d.id else 0))

def matchShared (s : Settings) (d : PairDefinition) (o : Occurrence) (es : List StackEntry)
    (opened : Nat) : Color × Status × MatchStack :=
  match o.role with
  | .opening =>
    let color := s.sharedColor d es.length opened
    (color, .opened, .shared (⟨d.id, color, o.range⟩ :: es) (opened + 1))
  | .closing =>
    match es with
    | e :: rest =>
      if e.pair = d.id then (e.color, .matched e.opening, .shared rest opened)
      else (d.orphan, .orphan, .shared es opened)
    | [] => (d.orphan, .orphan, .shared es opened)

def matchOwn (d : PairDefinition) (o : Occurrence) (es : List StackEntry) :
    Color × Status × List StackEntry :=
  match o.role with
  | .opening =>
    let color := d.colorAt es.length
    (color, .opened, ⟨d.id, color, o.range⟩ :: es)
  | .closing =>
    match es with
    | e :: rest => (e.color, .matched e.opening, rest)
    | [] => (d.orphan, .orphan, es)

/-- Meets an occurrence of a pair: its color, what became of it, and the stack after it. -/
def matchNext (s : Settings) (d : PairDefinition) (o : Occurrence) :
    MatchStack → Color × Status × MatchStack
  | .shared es opened => s.matchShared d o es opened
  | .perPair piles =>
    let (color, status, es) := matchOwn d o (piles[d.id]?.getD [])
    (color, status, .perPair (piles.set d.id es))

end Settings

end BracketColoring

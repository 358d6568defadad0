import BracketColoring.ColorMap

/-!
# Lines

Matching results are kept line by line: a line holds the stack before it, the stack after it, its
colored occurrences and the ranges of each color on it. The cache holds the first lines of a
document, without gaps; each line starts with the stack that the line before it ended with.
`LineCache.extend` builds missing lines and `LineCache.truncate` drops lines from the end.

The color map of a document has every color of its settings, also those that paint nothing; an
opening without a closing is painted in its pair's color for lone brackets, whatever its line
recorded.
-/

namespace BracketColoring

/-- The matching results of one line. -/
structure Line where
  index : Nat
  carriedIn : MatchStack
  carriedOut : MatchStack
  occurrences : List ColoredOccurrence
  paint : ColorMap
deriving DecidableEq, Repr, Inhabited

namespace Line

def blank (index : Nat) (carried : MatchStack) : Line := ⟨index, carried, carried, [], ⟨[]⟩⟩

/-- Adds a colored occurrence at the end of the line. -/
def record (l : Line) (c : ColoredOccurrence) : Line :=
  { l with
    occurrences := l.occurrences ++ [c]
    paint := l.paint.record c.color c.occurrence.range }

/-- Matches an occurrence on the line. An occurrence of no known pair is ignored. -/
def process (s : Settings) (l : Line) (o : Occurrence) : Line :=
  match s.pair? o.pair with
  | none => l
  | some d =>
    let (color, status, stack) := s.matchNext d o l.carriedOut
    { l with carriedOut := stack }.record ⟨o, color, status⟩

end Line

structure LineCache where
  start : MatchStack
  lines : List Line
deriving DecidableEq, Repr, Inhabited

namespace LineCache

/-- The cache of a document of which no line is known yet. -/
def empty (start : MatchStack) : LineCache := ⟨start, []⟩

def forSettings (s : Settings) : LineCache := empty (.start s)

def size (c : LineCache) : Nat := c.lines.length

def last? (c : LineCache) : Option Line := c.lines.getLast?

/-- The stack after the last line. -/
def carried (c : LineCache) : MatchStack :=
  match c.last? with
  | some l => l.carriedOut
  | none => c.start

/-- Builds the missing lines below `count`. They have no occurrences, so each ends with the stack
that the last known line ended with. -/
def extend (c : LineCache) (count : Nat) : LineCache :=
  { c with lines := c.lines ++
      (List.range' c.size (count - c.size)).map fun i => .blank i c.carried }

@[simp] theorem size_extend (c : LineCache) (count : Nat) :
    (c.extend count).size = max c.size count := by
  simp only [extend, size, List.length_append, List.length_map, List.length_range']
  omega

/-- Lines that are known stay as they are. -/
theorem extend_of_le (c : LineCache) (count : Nat) (h : count ≤ c.size) : c.extend count = c := by
  simp [extend, Nat.sub_eq_zero_of_le h]

/-- Drops the lines from `index` on. -/
def truncate (c : LineCache) (index : Nat) : LineCache := { c with lines := c.lines.take index }

/-- Matches an occurrence on a line, which is built first if it is missing. Later lines are not
looked at again. -/
def process (s : Settings) (c : LineCache) (index : Nat) (o : Occurrence) : LineCache :=
  let c := c.extend (index + 1)
  { c with lines := c.lines.modify index fun l => l.process s o }

/-- Matches occurrences in turn, each on the line that it starts on. -/
def processAll (s : Settings) (c : LineCache) (os : List Occurrence) : LineCache :=
  os.foldl (fun c o => c.process s o.line o) c

def occurrences (c : LineCache) : List ColoredOccurrence := c.lines.flatMap (·.occurrences)

/-- The openings that still wait after the last line, with the pairs they are of. -/
def unclosed (s : Settings) (c : LineCache) : List (StackEntry × PairDefinition) :=
  match c.last? with
  | some l => l.carriedOut.entries.filterMap fun e => (s.pair? e.pair).map fun d => (e, d)
  | none => []

/-- The colors of the openings that still wait after the last line. -/
def swept (s : Settings) (c : LineCache) : List (Range × Color) :=
  (c.unclosed s).map fun (e, d) => (e.opening, d.orphan)

/-- The color of a range in the document: that of a lone bracket if the range is that of a waiting
opening, of which the last counts, and otherwise the recorded one. -/
def finalColor (swept : List (Range × Color)) (recorded : Color) (r : Range) : Color :=
  ((swept.reverse.find? fun w => w.1 = r).map (·.2)).getD recorded

/-- The ranges on all lines, on each line by recorded color, with the colors to paint them with. -/
def painted (swept : List (Range × Color)) (c : LineCache) : List (Color × Range) :=
  c.lines.flatMap fun l => l.paint.entries.flatMap fun (recorded, ranges) =>
    ranges.map fun r => (finalColor swept recorded r, r)

def colorMap (s : Settings) (c : LineCache) : ColorMap :=
  ColorMap.ofPaint s.colors (c.painted (c.swept s))

end LineCache

end BracketColoring

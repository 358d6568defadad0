import BracketColoring.LineCache.Invalidate
import BracketColoring.PairIndex
import BracketColoring.Scheduler

/-!
# Document sessions

A session keeps the colors of one document up to date. A pass drops the lines from the lowest edited
line on, tokenizes the whole text, matches the occurrences on the lines that were dropped, and hands
the new color map to the subscribers. When the tokenizer fails, the colors and the pair index stay
as they are; the lines that were dropped are built by the next pass.
-/

namespace BracketColoring

/-- What came of a pass. -/
inductive PassOutcome where
  /-- The colors of the document, and the first line that was built anew. -/
  | rendered (colors : ColorMap) (rebuiltFrom : Nat)
  /-- The tokenizer failed; the map paints nothing. -/
  | failed (error : TokenizeError) (colors : ColorMap)
deriving DecidableEq, Repr, Inhabited

/-- A document with the results of its last pass. -/
structure Session (τ : Type) where
  settings : Settings
  tokenizer : τ
  text : String
  cache : LineCache
  scheduler : Scheduler
  colors : ColorMap
  pairs : PairIndex
  subscribers : List SubscriberId := []

namespace Session

variable {τ : Type}

def create (settings : Settings) (tokenizer : τ) (text : String) : Session τ where
  settings
  tokenizer
  text
  cache := .forSettings settings
  scheduler := { delay := settings.debounce }
  colors := .forSettings settings
  pairs := .empty

/-- The number of lines of the text, which is at least one. -/
def lineCount (s : Session τ) : Nat := BracketColoring.lineCount s.text

/-- Adds a subscriber, who gets the color map of every later pass. -/
def subscribe (s : Session τ) (id : SubscriberId) : Session τ :=
  { s with subscribers := s.subscribers ++ [id] }

/-- Drops the lines from the lowest edited line on, and those beyond the end of the text. -/
def dropLines (s : Session τ) (dirty : Nat) : Traced LineCache := do
  let edited ← s.cache.invalidate dirty
  edited.invalidate s.lineCount

/-- The lines of a document, when those of a cache are known and all occurrences are given. -/
def rebuild (s : Settings) (kept : LineCache) (os : List Occurrence) (lines : Nat) : LineCache :=
  let rebuilt := os.filter fun o => decide (kept.size ≤ o.line) && decide (o.line < lines)
  (kept.processAll s rebuilt).extend lines

variable [Tokenizer τ]

/-- Brings the lines from `dirty` on up to date. -/
def runPass (s : Session τ) (dirty : Nat) : Traced (PassOutcome × Session τ) := do
  let kept ← s.dropLines dirty
  match Tokenizer.tokenize s.tokenizer s.text with
  | (.error error, tokenizer) =>
    Traced.log (.tokenizeFailed error dirty)
    return (.failed error (.forSettings s.settings), { s with tokenizer, cache := kept })
  | (.ok root, tokenizer) =>
    let mapped := root.occurrences s.settings.literals
    let lines := s.lineCount
    let pastEnd := (mapped.occurrences.filter fun o =>
      decide (kept.size ≤ o.line) && decide (lines ≤ o.line)).length
    if 0 < pastEnd then Traced.log (.occurrencesPastEnd pastEnd lines)
    let cache := rebuild s.settings kept mapped.occurrences lines
    let colors := cache.colorMap s.settings
    let pairs := cache.pairIndex s.settings
    Traced.log (.passRendered dirty kept.size lines colors.rangeCount pairs.size)
    Traced.send (s.subscribers.map fun id => .render id colors)
    return (.rendered colors kept.size, { s with tokenizer, cache, colors, pairs })

def runFired (s : Session τ) (fired : Option Nat × Scheduler) :
    Traced (Option PassOutcome × Session τ) := do
  let s := { s with scheduler := fired.2 }
  match fired.1 with
  | some dirty =>
    let (outcome, s) ← s.runPass dirty
    return (some outcome, s)
  | none => return (none, s)

def flush (s : Session τ) : Traced (Option PassOutcome × Session τ) := do
  s.runFired (← s.scheduler.take)

/-- Runs the waiting pass if it is due. -/
def poll (s : Session τ) (now : Nat) : Traced (Option PassOutcome × Session τ) := do
  s.runFired (← s.scheduler.poll now)

/-- Replaces the text after an edit that starts on `line`. The pass runs at once when there is no
delay, and otherwise on a later `poll` or `flush`. -/
def edit (s : Session τ) (line : Nat) (text : String) (now : Nat) :
    Traced (Option PassOutcome × Session τ) := do
  let (schedule, scheduler) ← s.scheduler.noteEdit line now
  let s := { s with text, scheduler }
  match schedule with
  | .immediate => s.flush
  | .deferred _ => return (none, s)

/-- Brings the whole document up to date; work that waits is done with it. -/
def refresh (s : Session τ) : Traced (PassOutcome × Session τ) :=
  { s with scheduler := s.scheduler.reset }.runPass 0

/-- Takes new settings and starts over. -/
def setSettings (s : Session τ) (settings : Settings) : Traced (PassOutcome × Session τ) :=
  { s with
    settings
    cache := .forSettings settings
    scheduler := s.scheduler.setDelay settings.debounce
    colors := .forSettings settings
    pairs := .empty }.refresh

omit [Tokenizer τ]

/-- The pair around a position, as of the last pass that was rendered. -/
def enclosing? (s : Session τ) (pos : Position) : Option BracketPair := s.pairs.enclosing? pos

/-- A summary for debugging. -/
def describe (s : Session τ) : String :=
  let option (n : Option Nat) : String :=
    match n with
    | some n => "Some(" ++ toString n ++ ")"
    | none => "None"
  "DocumentSession \x7b line_count: " ++ toString s.lineCount
    ++ ", cached_lines: " ++ toString s.cache.size
    ++ ", scheduler: UpdateScheduler \x7b delay: " ++ describeDelay s.scheduler.delay
    ++ ", dirty_line: " ++ option s.scheduler.dirtyLine?
    ++ ", deadline: " ++ option s.scheduler.deadline?
    ++ " \x7d, subscribers: " ++ toString s.subscribers.length ++ " \x7d"

end Session

end BracketColoring

import BracketColoring.Pattern.Program

/-!
# Running a program

All ways of matching are followed at once, one character after the other. At a place of the text
they are threads in order of preference, at most one for each step of the program: a step that a
preferred thread has visited at the same place is not visited again. So the work for a character is
bounded by the size of the program. A thread that is done wins over the threads after it, while
those before it may still find a match that is preferred.

A search that waits does not decide a condition on the character ahead while it visits steps. The
thread stops at the condition, and if one of the waiting conditions then holds, all threads of the
place are visited anew.
-/

namespace BracketColoring

/-- A way of matching: the step it is at, the place where it began, and the names of the groups it
went through. -/
structure Thread where
  step : Nat
  start : Nat
  names : List String := []
deriving DecidableEq, Repr, Inhabited

/-- A match that was found: where it begins, its length, and the names of the groups it went
through. -/
structure Hit where
  start : Nat
  length : Nat
  names : List String := []
deriving DecidableEq, Repr, Inhabited

/-- The threads at a place while steps are being visited: which steps were, and the threads with the
last one first. -/
structure Front where
  visited : Array Bool
  threads : List Thread := []
deriving DecidableEq, Repr, Inhabited

structure SearchMode where
  /-- Whether a match must begin where the search does. -/
  anchored : Bool := false
  /-- Whether conditions on the character ahead wait. -/
  waits : Bool := false
  /-- The character behind the text that is searched. -/
  beyond : Option Char := none
deriving DecidableEq, Repr, Inhabited

namespace Thread

def goto (t : Thread) (step : Nat) : Thread := { t with step }

def mark (t : Thread) (name : String) : Thread :=
  if t.names.contains name then t else { t with names := name :: t.names }

end Thread

namespace Front

/-- Whether a step needs no visit. Steps that do not exist never do. -/
def isVisited (f : Front) (step : Nat) : Bool := f.visited.getD step true

def visit (f : Front) (step : Nat) : Front :=
  { f with visited := f.visited.setIfInBounds step true }

def push (f : Front) (t : Thread) : Front := { f with threads := t :: f.threads }

end Front

namespace Program

/-- Follows a thread to the steps that it can get to without reading. Every turn visits a step that
was not visited before, so the number of steps is enough for the budget. -/
def follow (p : Program) (holds : Assertion → Bool) : Nat → Thread → Front → Front
  | 0, _, f => f
  | budget + 1, t, f =>
    if f.isVisited t.step then f
    else
      let f := f.visit t.step
      match p.steps[t.step]? with
      | some (.branch first second) =>
        p.follow holds budget (t.goto second) (p.follow holds budget (t.goto first) f)
      | some (.mark name next) => p.follow holds budget ((t.mark name).goto next) f
      | some (.check a next) =>
        if holds a then p.follow holds budget (t.goto next) (f.push t) else f.push t
      | some (.read _ _) | some .done => f.push t
      | none => f

def followAll (p : Program) (holds : Assertion → Bool) (ts : List Thread) : List Thread :=
  let size := p.steps.size
  (ts.foldl (fun f t => p.follow holds (size + 1) t f) ⟨.replicate size false, []⟩).threads.reverse

/-- Whether a thread is at a condition of which `holds` is true. -/
def isHeldUp (p : Program) (holds : Assertion → Bool) (t : Thread) : Bool :=
  match p.steps[t.step]? with
  | some (.check a _) => holds a
  | _ => false

/-- The threads at a place between two characters, from those that get there. -/
def threadsAt (p : Program) (waits : Bool) (before after : Option Char) (ts : List Thread) :
    List Thread :=
  let holds (a : Assertion) : Bool := a.holds before after
  if waits then
    let ts := p.followAll (fun a => !a.looksAhead && holds a) ts
    if ts.any (p.isHeldUp fun a => a.looksAhead && holds a) then p.followAll holds ts else ts
  else p.followAll holds ts

/-- The thread after a character, if it reads it. -/
def advance? (p : Program) (c : Char) (t : Thread) : Option Thread :=
  match p.steps[t.step]? with
  | some (.read s next) => if s.contains c then some (t.goto next) else none
  | _ => none

def isDone (p : Program) (t : Thread) : Bool := p.steps[t.step]? == some .done

/-- One place of a search: the best match up to there, and the threads that go on. `best` and
`arrived` come from the places before. As long as there is no match, one may begin here. -/
def place (p : Program) (m : SearchMode) (best : Option Hit) (arrived : List Thread)
    (before after : Option Char) (pos : Nat) : Option Hit × List Thread :=
  let fresh : List Thread :=
    if best.isNone && (!m.anchored || pos == 0) then [⟨p.start, pos, []⟩] else []
  let ts := p.threadsAt m.waits before after (arrived ++ fresh)
  match ts.find? p.isDone with
  | some t => (some ⟨t.start, pos - t.start, t.names⟩, ts.takeWhile fun t => !p.isDone t)
  | none => (best, ts)

/-- The best match in a text, and the number of characters that had to be seen for it. -/
def scan (p : Program) (m : SearchMode) (best : Option Hit) (arrived : List Thread)
    (before : Option Char) (pos : Nat) : List Char → Option Hit × Nat
  | [] => ((p.place m best arrived before m.beyond pos).1, pos)
  | c :: rest =>
    let (best, ts) := p.place m best arrived before (some c) pos
    if ts.isEmpty && (best.isSome || m.anchored) then (best, pos + 1)
    else scan p m best (ts.filterMap (p.advance? c)) (some c) (pos + 1) rest

/-- The leftmost match in a text, of all that begin there the preferred one. -/
def leftmost? (p : Program) (m : SearchMode) (before : Option Char) (text : List Char) :
    Option Hit × Nat :=
  p.scan m none [] before 0 text

end Program

end BracketColoring

import BracketColoring.Pattern

/-!
# Programs

A pattern is compiled to a program: a list of steps that name the steps after them. The program is
written from its end, so that a part is given the step that follows it; only a loop refers to a step
that is filled in afterwards.

A loop over a part that may match empty text is entered by a branch of its own, not by the branch
that is between its turns. Otherwise an empty turn would lead back to the branch it came from, and
the way out behind it would lose its rank among the others.
-/

namespace BracketColoring

inductive Step where
  /-- Reads a character of a set. -/
  | read (s : CharSet) (next : Nat)
  /-- Goes on with either step; the first one is preferred. -/
  | branch (first second : Nat)
  | check (a : Assertion) (next : Nat)
  /-- Takes down the name of a group. -/
  | mark (name : String) (next : Nat)
  | done
deriving DecidableEq, Repr, Inhabited

/-- The steps of a compiled pattern, and the first of them. -/
structure Program where
  steps : Array Step
  start : Nat
deriving DecidableEq, Repr, Inhabited

namespace Program

/-- A way to write a part of a program: given the step that follows the part and the steps so far,
it gives the first step of the part and all steps. -/
abbrev Writer := Nat → Array Step → Nat × Array Step

def add (step : Step) (code : Array Step) : Nat × Array Step := (code.size, code.push step)

/-- A branch that prefers to go into a loop, or to leave it. -/
def turn (greedy : Bool) (body next : Nat) : Step :=
  if greedy then .branch body next else .branch next body

def writeLiteral : List Char → Writer
  | [], next, code => (next, code)
  | c :: cs, next, code =>
    let (next, code) := writeLiteral cs next code
    add (.read (.single c) next) code

/-- A part several times over, the last one first. -/
def writeCopies (part : Writer) : Nat → Writer
  | 0, next, code => (next, code)
  | n + 1, next, code =>
    let (next, code) := part next code
    writeCopies part n next code

/-- A part at most a number of times, the last turn first. Every turn may leave to `exit`, and the
last one goes on to `next`. -/
def writeOptional (part : Writer) (greedy : Bool) (exit : Nat) : Nat → Writer
  | 0, next, code => (next, code)
  | n + 1, next, code =>
    let (body, code) := part next code
    let (next, code) := add (turn greedy body exit) code
    writeOptional part greedy exit n next code

/-- A part in a loop, entered by the part or by the branch of the loop. -/
def writeLoop (part : Writer) (greedy byBranch : Bool) : Writer := fun next code =>
  let (loop, code) := add .done code
  let (body, code) := part loop code
  (if byBranch then loop else body, code.setIfInBounds loop (turn greedy body next))

/-- A part at least a number of times. -/
def writeAtLeast (part : Writer) (greedy mayBeEmpty : Bool) : Nat → Writer
  | 0, next, code =>
    if mayBeEmpty then
      let (body, code) := writeLoop part greedy false next code
      add (turn greedy body next) code
    else writeLoop part greedy true next code
  | n + 1, next, code =>
    let (last, code) := writeLoop part greedy false next code
    writeCopies part n last code

def write : Pattern → Writer
  | .empty, next, code => (next, code)
  | .literal text, next, code => writeLiteral text next code
  | .set s, next, code => add (.read s next) code
  | .check a, next, code => add (.check a next) code
  | .group none p, next, code => write p next code
  | .group (some name) p, next, code =>
    let (next, code) := add (.mark name next) code
    write p next code
  | .repeated p least most greedy, next, code =>
    match most with
    | none => writeAtLeast (write p) greedy p.mayBeEmpty least next code
    | some most =>
      let (next, code) := writeOptional (write p) greedy next (most - least) next code
      writeCopies (write p) least next code
  | .seq a b, next, code =>
    let (next, code) := write b next code
    write a next code
  | .alt a b, next, code =>
    let (second, code) := write b next code
    let (first, code) := write a next code
    add (.branch first second) code

/-- The program of a pattern. Its last step is the first one written. -/
def ofPattern (p : Pattern) : Program :=
  let (start, steps) := write p 0 #[.done]
  ⟨steps, start⟩

/-- Whether a step checks a condition of a kind. -/
def checks (kind : Assertion → Bool) (p : Program) : Bool :=
  p.steps.any fun
    | .check a _ => kind a
    | _ => false

end Program

end BracketColoring

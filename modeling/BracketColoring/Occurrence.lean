import BracketColoring.Literals
import BracketColoring.Position
import BracketColoring.Token

/-!
# Bracket occurrences

`Token.occurrences` walks a token tree in document order with a running position, and finds the
bracket literals of the punctuation nodes that hold text. The walk keeps the tokens that are still to
come on a stack, so that it handles trees of any depth. Each turn takes one token off the stack, and
after it the tokens on the stack need one turn less (`Walk.left_of_turn?`).
-/

namespace BracketColoring

structure Occurrence where
  range : Range
  literal : String
  pair : PairId
  role : Role
deriving DecidableEq, Repr, Inhabited

/-- The line that the literal starts on. -/
def Occurrence.line (o : Occurrence) : Nat := o.range.start.line

structure Mapped where
  occurrences : List Occurrence
  finish : Position
deriving DecidableEq, Repr, Inhabited

namespace Literals

/-- Gives the literals found in a text their positions; `p` is where the first gap starts. The
second result is where the last literal ends. -/
def locate (p : Position) : List Found → List Occurrence × Position
  | [] => ([], p)
  | f :: rest =>
    let start := p.advance f.gap
    let stop := start.advance f.binding.literal.toList
    let (os, last) := locate stop rest
    (⟨⟨start, stop⟩, f.binding.literal, f.binding.pair, f.binding.role⟩ :: os, last)

/-- The occurrences in a text that starts at `p`, and where it ends. -/
def occurrencesIn (t : Literals) (p : Position) (text : List Char) : List Occurrence × Position :=
  let (found, tail) := t.scan text
  let (os, last) := locate p found
  (os, last.advance tail)

end Literals

namespace Token

mutual

/-- The number of turns that a walk over a tree takes. A punctuation node and the text that stands
directly in it are visited in one turn. -/
def turns : Token → Nat
  | .text _ => 1
  | .list children => turnsOf children + 1
  | .node .punctuation (.text _) => 1
  | .node _ inner => turns inner + 1

/-- The number of turns for several trees in a row. -/
def turnsOf : List Token → Nat
  | [] => 0
  | root :: rest => turns root + turnsOf rest

end

theorem turnsOf_append (xs ys : List Token) : turnsOf (xs ++ ys) = turnsOf xs + turnsOf ys := by
  induction xs with
  | nil => simp [turnsOf]
  | cons root rest ih => simp [turnsOf, ih, Nat.add_assoc]

end Token

/-- A walk under way: the position it has come to, the occurrences it has found, the latest first,
and the tokens that are still to come, the next one on top. -/
structure Walk where
  place : Position
  found : List Occurrence
  stack : List Token

namespace Walk

def start (root : Token) : Walk := ⟨.origin, [], [root]⟩

/-- Puts tokens on a stack one by one, so that the last one is on top. -/
def push (tokens stack : List Token) : List Token :=
  tokens.foldl (fun stack token => token :: stack) stack

@[simp] theorem push_reverse (tokens stack : List Token) :
    push tokens.reverse stack = tokens ++ stack := by
  simp [push]

/-- Visits a token. The children of a list are put on the stack from the last one to the first. -/
def visit (t : Literals) (w : Walk) : Token → Walk
  | .text s => { w with place := w.place.advance s.toList }
  | .list children => { w with stack := push children.reverse w.stack }
  | .node .punctuation (.text s) =>
    let (os, q) := t.occurrencesIn w.place s.toList
    { w with place := q, found := os.reverse ++ w.found }
  | .node _ inner => { w with stack := inner :: w.stack }

/-- One turn takes the token on top off the stack and visits it. -/
def turn? (t : Literals) (w : Walk) : Option Walk :=
  match w.stack with
  | [] => none
  | token :: stack => some (visit t { w with stack } token)

/-- The number of turns that are left. -/
def left (w : Walk) : Nat := Token.turnsOf w.stack

theorem left_visit (t : Literals) (w : Walk) (token : Token) :
    token.turns + w.left = (w.visit t token).left + 1 := by
  fun_cases visit t w token with
  | case1 s => simp [Token.turns, left, Nat.add_comm]
  | case2 children =>
    simp [Token.turns, left, Token.turnsOf_append, Nat.add_right_comm]
  | case3 s os q found => simp [Token.turns, left, Nat.add_comm]
  | case4 category inner notText =>
    simp [Token.turns, left, Token.turnsOf, Nat.add_right_comm]

theorem left_of_turn? {t : Literals} {w next : Walk} (turned : w.turn? t = some next) :
    w.left = next.left + 1 := by
  unfold turn? at turned
  split at turned
  · cases turned
  · next token stack top =>
    cases turned
    rw [← left_visit, left, top]
    rfl

/-- Takes turns until the stack is empty. -/
def run (t : Literals) (w : Walk) : Mapped :=
  match _turned : w.turn? t with
  | some next => run t next
  | none => ⟨w.found.reverse, w.place⟩
termination_by w.left
decreasing_by exact Nat.lt_of_succ_le (Nat.le_of_eq (left_of_turn? _turned).symm)

end Walk

/-- The bracket literals of a token tree. -/
def Token.occurrences (root : Token) (t : Literals) : Mapped := Walk.run t (.start root)

end BracketColoring

import BracketColoring.Pattern.CharSet

/-!
# Patterns

A pattern is built by the functions of the last section, which keep it in a normal form: sequences
and alternations are nested to the right and hold at least two parts, neighbouring literals are one
literal, an alternation of characters or sets is a set, and a beginning that all sides of an
alternation share stands before it. The normal form matters, because the search visits each place of
the program of a pattern once at each place of the text, and so a different form of a pattern with
empty turns in a loop may prefer a different match.
-/

namespace BracketColoring

/-- A condition on the characters around a place in a text. -/
inductive Assertion where
  | textStart
  | textEnd
  | lineStart
  | lineEnd
  | wordBoundary
  | notWordBoundary
  | wordStart
  | wordEnd
  | wordStartHalf
  | wordEndHalf
deriving DecidableEq, Repr, Inhabited

namespace Assertion

/-- Whether a condition holds between two characters; there is none beyond the ends of a text. -/
def holds (a : Assertion) (before after : Option Char) : Bool :=
  let wordBefore := before.any Unicode.isWord
  let wordAfter := after.any Unicode.isWord
  match a with
  | textStart => before.isNone
  | textEnd => after.isNone
  | lineStart => before.all (· == '\n')
  | lineEnd => after.all (· == '\n')
  | wordBoundary => wordBefore != wordAfter
  | notWordBoundary => wordBefore == wordAfter
  | wordStart => !wordBefore && wordAfter
  | wordEnd => wordBefore && !wordAfter
  | wordStartHalf => !wordBefore
  | wordEndHalf => !wordAfter

/-- Whether a condition depends on the character after the place. -/
def looksAhead : Assertion → Bool
  | textStart | lineStart | wordStartHalf => false
  | _ => true

/-- Whether a condition depends on what is part of a word. -/
def aboutWords : Assertion → Bool
  | textStart | textEnd | lineStart | lineEnd => false
  | _ => true

end Assertion

inductive Pattern where
  | empty
  | literal (text : List Char)
  | set (s : CharSet)
  | check (a : Assertion)
  /-- A part in parentheses. A match tells the names of the groups that it went through. -/
  | group (name : Option String) (p : Pattern)
  | repeated (p : Pattern) (least : Nat) (most : Option Nat) (greedy : Bool)
  | seq (a b : Pattern)
  /-- Either side; the first one is preferred. -/
  | alt (a b : Pattern)
deriving DecidableEq, Repr, Inhabited

namespace Pattern

/-! ## Views -/

def items : Pattern → List Pattern
  | empty => []
  | seq a b => a :: b.items
  | p => [p]

def sides : Pattern → List Pattern
  | alt a b => a :: b.sides
  | p => [p]

def isSeq : Pattern → Bool
  | seq _ _ => true
  | _ => false

def char? : Pattern → Option Char
  | literal [c] => some c
  | _ => none

def set? : Pattern → Option CharSet
  | set s => some s
  | _ => none

def size : Pattern → Nat
  | group _ p => p.size + 1
  | repeated p _ _ _ => p.size + 1
  | seq a b => a.size + b.size + 1
  | alt a b => a.size + b.size + 1
  | _ => 1

/-- Whether a pattern has no match but empty ones. -/
def onlyEmpty : Pattern → Bool
  | empty => true
  | literal text => text.isEmpty
  | set _ => false
  | check _ => true
  | group _ p => p.onlyEmpty
  | repeated p _ most _ => most.isSome && p.onlyEmpty
  | seq a b => a.onlyEmpty && b.onlyEmpty
  | alt a b => a.onlyEmpty && b.onlyEmpty

/-- Whether a pattern may have an empty match. -/
def mayBeEmpty : Pattern → Bool
  | empty => true
  | literal text => text.isEmpty
  | set _ => false
  | check _ => true
  | group _ p => p.mayBeEmpty
  | repeated p least _ _ => least == 0 || p.mayBeEmpty
  | seq a b => a.mayBeEmpty && b.mayBeEmpty
  | alt a b => a.mayBeEmpty || b.mayBeEmpty

/-- Whether two parts of a pattern are the same. Two groups never are, since each has its own
place among the groups. -/
def same : Pattern → Pattern → Bool
  | empty, empty => true
  | literal s, literal t => s == t
  | set s, set t => s.same t
  | check a, check b => a == b
  | repeated p least most greedy, repeated q least' most' greedy' =>
    p.same q && least == least' && most == most' && greedy == greedy'
  | seq a b, seq c d => a.same c && b.same d
  | alt a b, alt c d => a.same c && b.same d
  | _, _ => false

/-! ## Normal forms -/

def sequence : List Pattern → Pattern
  | [] => empty
  | [p] => p
  | p :: ps => seq p (sequence ps)

def choice : List Pattern → Pattern
  | [] => set .none
  | [p] => p
  | p :: ps => alt p (choice ps)

/-- Puts a part before others, and two literals into one. -/
def consItem (p : Pattern) (ps : List Pattern) : List Pattern :=
  match p, ps with
  | literal s, literal t :: rest => literal (s ++ t) :: rest
  | p, ps => p :: ps

/-- The sequence of some patterns in normal form. -/
def concat (ps : List Pattern) : Pattern := sequence ((ps.flatMap items).foldr consItem [])

def ofChar (c : Char) : Pattern := literal [c]

def ofSet (s : CharSet) : Pattern :=
  match s.only? with
  | some c => ofChar c
  | none => set s

/-- The number of parts at the start of two sequences that are the same. -/
def sharedLength : List Pattern → List Pattern → Nat
  | p :: ps, q :: qs => if p.same q then sharedLength ps qs + 1 else 0
  | _, _ => 0

/-- The number of parts that all sequences of a list start with. -/
def sharedPrefix : List (List Pattern) → Nat
  | [] => 0
  | first :: others => others.foldl (fun n ps => min n (sharedLength first ps)) first.length

/-- The alternation of some patterns in normal form. Taking a shared beginning off the sides makes
them smaller, so their total size is enough for the budget. -/
def alternationWithin : Nat → List Pattern → Pattern
  | 0, ps => choice ps
  | budget + 1, ps =>
    let ps := ps.flatMap sides
    match ps with
    | [] => choice []
    | [p] => p
    | first :: _ =>
      match ps.mapM char?, ps.mapM set? with
      | some cs, _ => ofSet (cs.foldl (fun s c => s.join (.single c)) .none)
      | _, some ss => ofSet (ss.foldl .join .none)
      | none, none =>
        let shared := if ps.all isSeq then sharedPrefix (ps.map items) else 0
        if shared = 0 then choice ps
        else
          let ends := ps.map fun p => concat (p.items.drop shared)
          concat (first.items.take shared ++ [alternationWithin budget ends])

def alternation (ps : List Pattern) : Pattern :=
  alternationWithin ((ps.map size).foldr (· + ·) 0 + 1) ps

/-- A pattern several times. One that has only empty matches is not tried more than once. -/
def times (p : Pattern) (least : Nat) (most : Option Nat) (greedy : Bool) : Pattern :=
  let (least, most) :=
    if p.onlyEmpty then (min least 1, some (min (most.getD 1) 1)) else (least, most)
  if most = some 0 then empty
  else if least = 1 ∧ most = some 1 then p
  else repeated p least most greedy

end Pattern

end BracketColoring

import BracketColoring.Pattern.Threads

/-!
# Searching a text

A search goes over a text from left to right and reports matches that do not overlap. An empty match
is passed over when it lies directly behind the match before it; the search then goes on one
character further. The gaps and the matches, put together, are the text.

In a program with conditions on the character ahead, the ends of a match are found by a search that
waits. If it has conditions about words too, this is done only where all characters are ASCII. The
groups of the match are found by a second search, inside the match and without waiting.
-/

namespace BracketColoring

/-- A match, with the text between it and the match before it. -/
structure Match where
  gap : List Char
  text : List Char
  names : List String
deriving DecidableEq, Repr, Inhabited

/-- The text that some matches and the gaps before them make up. -/
def Match.whole (ms : List Match) : List Char := ms.flatMap fun m => m.gap ++ m.text

@[simp] theorem Match.whole_nil : whole [] = [] := rfl

@[simp] theorem Match.whole_cons (m : Match) (ms : List Match) :
    whole (m :: ms) = m.gap ++ m.text ++ whole ms := rfl

/-- The character before the end of a text. `before` is the one before its start. -/
def lastOr (before : Option Char) (text : List Char) : Option Char := text.getLast?.or before

/-- A way to look for a match: it is given the character before a text and the text. -/
abbrev Finder := Option Char → List Char → Option Hit

namespace Finder

/-- The next match in a text. `touching` tells that a match ended where the text begins; then an
empty match there does not count. -/
def next? (find : Finder) (touching : Bool) (before : Option Char) (text : List Char) :
    Option Hit :=
  match find before text with
  | none => none
  | some h =>
    if touching && h.start == 0 && h.length == 0 then
      match text with
      | [] => none
      | c :: rest => (find (some c) rest).map fun h => { h with start := h.start + 1 }
    else some h

/-- The matches in a text, and the text after the last one. Every match but the first ends further
on than the one before, so the length of the text bounds the number of turns. -/
def matchesFrom (find : Finder) :
    Nat → Bool → Option Char → List Char → List Match × List Char
  | 0, _, _, text => ([], text)
  | budget + 1, touching, before, text =>
    match find.next? touching before text with
    | none => ([], text)
    | some h =>
      let gap := text.take h.start
      let inside := (text.drop h.start).take h.length
      let rest := (text.drop h.start).drop h.length
      let (ms, tail) := find.matchesFrom budget true (lastOr (lastOr before gap) inside) rest
      (⟨gap, inside, h.names⟩ :: ms, tail)

/-- The gaps and the matches, and the text after them, are the text that is searched. -/
theorem whole_matchesFrom (find : Finder) (budget : Nat) (touching : Bool)
    (before : Option Char) (text : List Char) :
    Match.whole (find.matchesFrom budget touching before text).1
      ++ (find.matchesFrom budget touching before text).2 = text := by
  induction budget generalizing touching before text with
  | zero => rfl
  | succ budget ih =>
    rw [matchesFrom]
    split
    · rfl
    · simp only [Match.whole_cons, List.append_assoc, ih, List.take_append_drop]

end Finder

namespace Program

/-- Goes through a match again, for its groups. -/
def retrace? (p : Program) (before : Option Char) (text : List Char) (h : Hit) : Option Hit :=
  let inside := (text.drop h.start).take h.length
  let m : SearchMode := { anchored := true, beyond := (text.drop (h.start + h.length)).head? }
  (p.leftmost? m (lastOr before (text.take h.start)) inside).1.map fun g =>
    { g with start := h.start }

/-- The match that is found in a text. `ahead` and `words` tell whether there are conditions on the
character ahead and conditions about words, `groups` whether to tell the groups. -/
def find? (p : Program) (ahead words groups : Bool) : Finder := fun before text =>
  if ahead then
    let (hit, seen) := p.leftmost? { waits := true } before text
    if words && !(before.toList ++ text.take seen).all Unicode.isAscii then
      (p.leftmost? {} before text).1
    else if groups then hit.bind (p.retrace? before text)
    else hit
  else (p.leftmost? {} before text).1

def search (p : Program) (groups : Bool) (text : List Char) : List Match × List Char :=
  let find : Finder := p.find? (p.checks (·.looksAhead)) (p.checks (·.aboutWords)) groups
  find.matchesFrom (text.length + 2) false none text

end Program

end BracketColoring

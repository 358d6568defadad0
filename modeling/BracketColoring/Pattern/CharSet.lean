import BracketColoring.Ordered
import BracketColoring.Unicode.Class

/-!
# Character sets

A character set is built from intervals and classes by union, intersection, difference, symmetric
difference and complement. `CharSet.contains` says what is in it. Two sets that are built in
different ways are the same when their `intervals` agree.

Of the classes of Unicode there are those that have a letter of their own, for digits, white space and
words; there is none for any other property. Case is folded within ASCII, and not beyond it but for two
characters.
-/

namespace BracketColoring

inductive CharSet where
  | none
  | range (low high : Char)
  /-- The characters of an interval, in either case. -/
  | anyCase (low high : Char)
  | digit
  | whiteSpace
  | word
  | union (a b : CharSet)
  | inter (a b : CharSet)
  | diff (a b : CharSet)
  | symmDiff (a b : CharSet)
  | compl (a : CharSet)
deriving DecidableEq, Repr, Inhabited

namespace CharSet

/-- The forms of a character that differ in case only: for a letter of ASCII both cases, and the two
other characters that fold to one of them. -/
def caseForms (c : Char) : List Char :=
  if c = 'k' ∨ c = 'K' ∨ c = '\u212a' then ['k', 'K', '\u212a']
  else if c = 's' ∨ c = 'S' ∨ c = '\u017f' then ['s', 'S', '\u017f']
  else if Unicode.isAsciiLetter c then [c.toLower, c.toUpper]
  else [c]

def inRange (low high c : Char) : Bool := decide (low ≤ c) && decide (c ≤ high)

def contains : CharSet → Char → Bool
  | none, _ => false
  | range low high, c => inRange low high c
  | anyCase low high, c => (caseForms c).any (inRange low high)
  | digit, c => Unicode.isDigit c
  | whiteSpace, c => Unicode.isWhiteSpace c
  | word, c => Unicode.isWord c
  | union a b, c => a.contains c || b.contains c
  | inter a b, c => a.contains c && b.contains c
  | diff a b, c => a.contains c && !b.contains c
  | symmDiff a b, c => a.contains c != b.contains c
  | compl a, c => !a.contains c

def all : CharSet := compl none

def single (c : Char) : CharSet := range c c

/-- The union, without a trace of an empty side. -/
def join (a b : CharSet) : CharSet :=
  if a = none then b else if b = none then a else union a b

/-! ## Small sets -/

/-- The characters of an interval that has fewer than 64. -/
def fewBetween? (low high : Char) : Option (List Char) :=
  if high.toNat < low.toNat + 64 then
    some ((List.range' low.toNat (high.toNat + 1 - low.toNat)).map Char.ofNat)
  else Option.none

def fewTogether? (cs ds : List Char) : Option (List Char) :=
  if cs.length + ds.length < 256 then some (cs ++ ds) else Option.none

/-- The characters of a set that is built from small intervals. -/
def few? : CharSet → Option (List Char)
  | none => some []
  | range low high => fewBetween? low high
  | anyCase low high => (fewBetween? low high).map (·.flatMap caseForms)
  | union a b => do fewTogether? (← a.few?) (← b.few?)
  | inter a b =>
    match a.few? with
    | some cs => some (cs.filter b.contains)
    | Option.none => b.few?.map (·.filter a.contains)
  | diff a b => a.few?.map (·.filter (!b.contains ·))
  | symmDiff a b => do
    fewTogether? ((← a.few?).filter (!b.contains ·)) ((← b.few?).filter (!a.contains ·))
  | digit | whiteSpace | word | compl _ => Option.none

/-- The only character of a set that is built from small intervals and has just one. -/
def only? (s : CharSet) : Option Char :=
  match s.few? with
  | some (c :: cs) => if cs.all (· == c) then some c else Option.none
  | _ => Option.none

/-! ## Intervals -/

def mergeIntervals (ranges : List (Nat × Nat)) : List (Nat × Nat) :=
  let sorted := Ordered.sort (fun a b => decide (a.1 ≤ b.1)) (ranges.filter fun r => r.1 ≤ r.2)
  (sorted.foldl (fun acc r =>
    match acc with
    | top :: rest => if r.1 ≤ top.2 + 1 then (top.1, max top.2 r.2) :: rest else r :: acc
    | [] => [r]) []).reverse

/-- The gaps between merged intervals from `start` on. The code points of surrogates are no
characters, so no gap starts or ends there. -/
def gapsFrom (start : Nat) : List (Nat × Nat) → List (Nat × Nat)
  | [] => gap start 0x10FFFF
  | r :: rest => (if r.1 = 0 then [] else gap start (r.1 - 1)) ++ gapsFrom (r.2 + 1) rest
where
  gap (low high : Nat) : List (Nat × Nat) :=
    let low := if 0xD800 ≤ low ∧ low ≤ 0xDFFF then 0xE000 else low
    let high := if 0xD800 ≤ high ∧ high ≤ 0xDFFF then 0xD7FF else high
    if low ≤ high then [(low, high)] else []

/-- The characters that differ in case from another one. -/
def casedChars : List Char :=
  (List.range' 65 26).map Char.ofNat ++ (List.range' 97 26).map Char.ofNat
    ++ ['\u017f', '\u212a']

/-- The code points of a set as intervals in increasing order that do not touch. -/
def intervals : CharSet → List (Nat × Nat)
  | none => []
  | range low high => mergeIntervals [(low.toNat, high.toNat)]
  | anyCase low high =>
    mergeIntervals ((low.toNat, high.toNat) ::
      (casedChars.filter (anyCase low high).contains).map fun c => (c.toNat, c.toNat))
  | digit => mergeIntervals ((48, 57) :: Unicode.decimalNumberRanges)
  | whiteSpace => mergeIntervals ((9, 13) :: (32, 32) :: Unicode.whiteSpaceRanges)
  | word =>
    mergeIntervals ([(48, 57), (65, 90), (95, 95), (97, 122), (0x200C, 0x200D)]
      ++ Unicode.alphabeticRanges ++ Unicode.markRanges ++ Unicode.decimalNumberRanges
      ++ Unicode.connectorRanges)
  | union a b => mergeIntervals (a.intervals ++ b.intervals)
  | inter a b =>
    gapsFrom 0 (mergeIntervals (gapsFrom 0 a.intervals ++ gapsFrom 0 b.intervals))
  | diff a b => gapsFrom 0 (mergeIntervals (gapsFrom 0 a.intervals ++ b.intervals))
  | symmDiff a b =>
    mergeIntervals (gapsFrom 0 (mergeIntervals (gapsFrom 0 a.intervals ++ b.intervals))
      ++ gapsFrom 0 (mergeIntervals (a.intervals ++ gapsFrom 0 b.intervals)))
  | compl a => gapsFrom 0 a.intervals

/-- Whether two sets have the same characters. -/
def same (a b : CharSet) : Bool := a == b || a.intervals == b.intervals

end CharSet

end BracketColoring

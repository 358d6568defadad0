import BracketColoring.Pattern

/-!
# Reading patterns

The reader goes over the text of a pattern once. It keeps the open groups on a stack; each holds the
alternatives and the items read so far and the flags to return to. Classes in brackets nest, and
recurse on a budget for which the length of the text is enough, because every turn uses up a
character.

Letters after a backslash, flags and class names that have no meaning are refused, and so are
look-around, references to groups, and patterns that nest too deeply.

Engines differ, and this one does not have all that others have:

* Classes of Unicode properties (`\p` and `\P`) are refused.
* The flag `R`, with which lines end with a carriage return and a line feed, is refused.
* The flag `u` is read, but does nothing: classes and dots stand for characters, never for bytes.
* Ignoring case folds the letters of ASCII and the two other characters that fold to one of them
  (`CharSet.caseForms`), and no others.
* There is no limit on the size of a pattern, or on that of its program.

What is proved with no more than what is relied on of engines (`PatternEngine.Lawful`) holds of the
others too.
-/

namespace BracketColoring.Pattern.Reader

open BracketColoring (CharSet)

/-- The switches that change how a pattern is read. -/
structure Flags where
  anyCase : Bool := false
  multiLine : Bool := false
  dotAll : Bool := false
  swapGreed : Bool := false
  /-- Blanks and comments in the pattern are left out. -/
  extended : Bool := false
deriving DecidableEq, Repr, Inhabited

/-- The characters that are written with a backslash to mean themselves. -/
def isEscapable (c : Char) : Bool :=
  Unicode.isAscii c && !Unicode.isAsciiLetter c && !Unicode.isAsciiDigit c && c != '<' && c != '>'

/-- Leaves out blanks, and comments from `#` to the end of the line. -/
def skipBlanks : Bool → List Char → List Char
  | _, [] => []
  | true, c :: rest => skipBlanks (c != '\n') rest
  | false, c :: rest =>
    if Unicode.isWhiteSpace c then skipBlanks false rest
    else if c = '#' then skipBlanks true rest
    else c :: rest

def skip (f : Flags) (cs : List Char) : List Char := if f.extended then skipBlanks false cs else cs

/-- Takes at most a number of characters of a kind, and leaves out what is skipped before each. -/
def takeSkipping (f : Flags) (isKind : Char → Bool) : Nat → List Char → List Char × List Char
  | 0, cs => ([], cs)
  | n + 1, cs =>
    match skip f cs with
    | [] => ([], [])
    | c :: rest =>
      if isKind c then
        let (taken, rest) := takeSkipping f isKind n rest
        (c :: taken, rest)
      else ([], c :: rest)

/-! ## Nesting -/

/-- The deepest nesting of a pattern. Groups, repetitions, classes, and sequences, alternations and
unions of at least two parts count. -/
def nestingLimit : Nat := 250

def nesting : List Nat → Nat
  | [] => 0
  | [depth] => depth
  | depths => depths.foldl max 0 + 1

/-! ## Escapes -/

/-- What a backslash and the characters after it stand for. -/
inductive Escape where
  | char (c : Char)
  | set (s : CharSet)
  | check (a : Assertion)

def hexValue? (c : Char) : Option Nat :=
  if decide ('0' ≤ c) && decide (c ≤ '9') then some (c.toNat - '0'.toNat)
  else if decide ('a' ≤ c) && decide (c ≤ 'f') then some (c.toNat - 'a'.toNat + 10)
  else if decide ('A' ≤ c) && decide (c ≤ 'F') then some (c.toNat - 'A'.toNat + 10)
  else none

def ofCodePoint? (n : Nat) : Option Char := if n.isValidChar then some (Char.ofNat n) else none

def hexNumber? (digits : List Char) : Option Nat :=
  digits.foldlM (fun n c => (hexValue? c).map (n * 16 + ·)) 0

/-- Reads a code point: in braces, or as a fixed number of digits. -/
def readCodePoint (f : Flags) (width : Nat) (cs : List Char) : Option (Char × List Char) :=
  let isHex (c : Char) : Bool := (hexValue? c).isSome
  match skip f cs with
  | '\x7b' :: rest =>
    match takeSkipping f isHex rest.length rest with
    | ([], _) => none
    | (digits, '\x7d' :: after) => do return (← ofCodePoint? (← hexNumber? digits), after)
    | _ => none
  | cs =>
    let (digits, after) := takeSkipping f isHex width cs
    if digits.length < width then none
    else do return (← ofCodePoint? (← hexNumber? digits), after)

/-- The word boundaries that are named in braces after `\b`. -/
def boundary? (name : List Char) : Option Assertion :=
  [("start", Assertion.wordStart), ("end", .wordEnd), ("start-half", .wordStartHalf),
    ("end-half", .wordEndHalf)].find? (fun b => b.1.toList = name) |>.map (·.2)

/-- Reads what follows `\b`: a name in braces, or nothing. Braces that do not begin with a letter or
a hyphen belong to a repetition. -/
def readBoundary (f : Flags) (cs : List Char) : Option (Assertion × List Char) :=
  let isPart (c : Char) : Bool := Unicode.isAsciiLetter c || c == '-'
  match cs with
  | '\x7b' :: rest =>
    match skip f rest with
    | [] => none
    | c :: _ =>
      if isPart c then
        match takeSkipping f isPart rest.length rest with
        | (name, '\x7d' :: after) => (boundary? name).map fun a => (a, after)
        | _ => none
      else some (.wordBoundary, cs)
  | _ => some (.wordBoundary, cs)

def readEscape (f : Flags) : List Char → Option (Escape × List Char)
  | [] => none
  | c :: rest =>
    if isEscapable c then some (.char c, rest)
    else
      match c with
      | 'd' => some (.set .digit, rest)
      | 'D' => some (.set (.compl .digit), rest)
      | 's' => some (.set .whiteSpace, rest)
      | 'S' => some (.set (.compl .whiteSpace), rest)
      | 'w' => some (.set .word, rest)
      | 'W' => some (.set (.compl .word), rest)
      | 'a' => some (.char '\x07', rest)
      | 'f' => some (.char '\x0c', rest)
      | 't' => some (.char '\t', rest)
      | 'n' => some (.char '\n', rest)
      | 'r' => some (.char '\r', rest)
      | 'v' => some (.char '\x0b', rest)
      | 'A' => some (.check .textStart, rest)
      | 'z' => some (.check .textEnd, rest)
      | 'b' => (readBoundary f rest).map fun (a, after) => (.check a, after)
      | 'B' => some (.check .notWordBoundary, rest)
      | '<' => some (.check .wordStart, rest)
      | '>' => some (.check .wordEnd, rest)
      | 'x' => (readCodePoint f 2 rest).map fun (c, after) => (.char c, after)
      | 'u' => (readCodePoint f 4 rest).map fun (c, after) => (.char c, after)
      | 'U' => (readCodePoint f 8 rest).map fun (c, after) => (.char c, after)
      | _ => none

/-! ## Classes -/

/-- The characters of an interval, in either case if the flags say so. -/
def interval (f : Flags) (low high : Char) : CharSet :=
  if f.anyCase then .anyCase low high else .range low high

/-- The classes of ASCII characters that have a name, as intervals. -/
def asciiClasses : List (String × List (Char × Char)) :=
  [("alnum", [('0', '9'), ('A', 'Z'), ('a', 'z')]), ("alpha", [('A', 'Z'), ('a', 'z')]),
    ("ascii", [('\x00', '\x7f')]), ("blank", [('\t', '\t'), (' ', ' ')]),
    ("cntrl", [('\x00', '\x1f'), ('\x7f', '\x7f')]), ("digit", [('0', '9')]),
    ("graph", [('!', '~')]), ("lower", [('a', 'z')]), ("print", [(' ', '~')]),
    ("punct", [('!', '/'), (':', '@'), ('[', '`'), ('\x7b', '~')]),
    ("space", [('\t', '\r'), (' ', ' ')]), ("upper", [('A', 'Z')]),
    ("word", [('0', '9'), ('A', 'Z'), ('_', '_'), ('a', 'z')]),
    ("xdigit", [('0', '9'), ('A', 'F'), ('a', 'f')])]

def unionOf (f : Flags) (ranges : List (Char × Char)) : CharSet :=
  ranges.foldl (fun s r => s.join (interval f r.1 r.2)) .none

/-- Reads a named class after its opening bracket: a colon, the name, a colon and a bracket. -/
def readNamedClass? (f : Flags) : List Char → Option (CharSet × List Char)
  | ':' :: cs => do
    let (negated, cs) := match cs with
      | '^' :: rest => (true, rest)
      | rest => (false, rest)
    let name := String.ofList (cs.takeWhile (· ≠ ':'))
    match cs.dropWhile (· ≠ ':') with
    | ':' :: ']' :: rest =>
      let (_, ranges) ← asciiClasses.find? fun entry => entry.1 = name
      let s := unionOf f ranges
      return (if negated then .compl s else s, rest)
    | _ => none
  | _ => none

def readClassAtom (f : Flags) : List Char → Option (Escape × List Char)
  | [] => none
  | '\\' :: rest => readEscape f rest
  | c :: rest => some (.char c, rest)

/-- The character that decides whether a hyphen stands for itself: the next one that is not blank.
With comments it is the first one in a comment, and without any it is the next one. -/
def peek? (f : Flags) (cs : List Char) : Option Char :=
  if f.extended then
    match cs.dropWhile Unicode.isWhiteSpace with
    | '#' :: comment => (comment.dropWhile Unicode.isWhiteSpace).head?.or cs.head?
    | rest => rest.head?.or cs.head?
  else cs.head?

def readClassItem (f : Flags) (cs : List Char) : Option (CharSet × List Char) := do
  let (low, rest) ← readClassAtom f cs
  let rest := skip f rest
  let single : Option (CharSet × List Char) :=
    match low with
    | .char c => some (interval f c c, rest)
    | .set s => some (s, rest)
    | .check _ => none
  match rest with
  | [] => none
  | '-' :: after =>
    let next := peek? f after
    if next = some ']' ∨ next = some '-' then single
    else
      match low, ← readClassAtom f (skip f after) with
      | .char low, (.char high, rest) =>
        if low ≤ high then some (interval f low high, rest) else none
      | _, _ => none
  | _ => single

/-- The part of a class that has been read so far: the set, and the nesting of its items. -/
structure ClassPart where
  set : CharSet := .none
  depths : List Nat := []

def ClassPart.add (part : ClassPart) (s : CharSet) (depth : Nat) : ClassPart :=
  ⟨part.set.join s, depth :: part.depths⟩

inductive ClassOp where
  | inter
  | diff
  | symmDiff

def ClassOp.apply : ClassOp → CharSet → CharSet → CharSet
  | inter, a, b => .inter a b
  | diff, a, b => .diff a b
  | symmDiff, a, b => .symmDiff a b

/-- An operation that waits for its right side: the operation, the left side, and its nesting. -/
abbrev PendingOp := ClassOp × CharSet × Nat

/-- The set of a class, its nesting, and the text behind it. -/
abbrev ClassResult := CharSet × Nat × List Char

/-- The set and the nesting of a part, after the operation that waits for it. -/
def ClassPart.close (part : ClassPart) (pending : Option PendingOp) : CharSet × Nat :=
  let depth := nesting part.depths
  match pending with
  | some (op, left, leftDepth) => (op.apply left part.set, max leftDepth depth + 1)
  | none => (part.set, depth)

/-- Reads the start of a class: whether it is negated, and the hyphens or the closing bracket that
stand there for themselves. -/
def readClassHead (f : Flags) (cs : List Char) : Bool × ClassPart × List Char :=
  let (negated, cs) := match skip f cs with
    | '^' :: rest => (true, skip f rest)
    | rest => (false, rest)
  match cs with
  | ']' :: rest => (negated, ⟨.single ']', [0]⟩, rest)
  | cs =>
    let (hyphens, rest) := takeSkipping f (· == '-') cs.length cs
    (negated, hyphens.foldl (fun part c => part.add (.single c) 0) {}, rest)

/-- Reads the rest of a class up to its closing bracket. `level` is the number of
classes that may still be opened inside, and `part` what has been read of this one. -/
def readClassBody (f : Flags) :
    Nat → Nat → Option PendingOp → ClassPart → List Char → Option ClassResult
  | 0, _, _, _, _ => none
  | budget + 1, level, pending, part, cs =>
    let operate (op : ClassOp) (rest : List Char) : Option ClassResult :=
      readClassBody f budget level (some (op, part.close pending)) {} rest
    match skip f cs with
    | [] => none
    | ']' :: rest =>
      let (s, depth) := part.close pending
      some (s, depth, rest)
    | '[' :: rest =>
      match readNamedClass? f rest, level with
      | some (cls, rest), _ => readClassBody f budget level pending (part.add cls 0) rest
      | none, 0 => none
      | none, level + 1 => do
        let (negated, first, rest) := readClassHead f rest
        let (s, depth, rest) ← readClassBody f budget level none first rest
        let s := if negated then .compl s else s
        readClassBody f budget (level + 1) pending (part.add s (depth + 1)) rest
    | '&' :: '&' :: rest => operate .inter rest
    | '-' :: '-' :: rest => operate .diff rest
    | '~' :: '~' :: rest => operate .symmDiff rest
    | cs => do
      let (item, rest) ← readClassItem f cs
      readClassBody f budget level pending (part.add item 0) rest

def readClass (f : Flags) (budget : Nat) (cs : List Char) : Option ClassResult := do
  let (negated, first, rest) := readClassHead f cs
  let (s, depth, rest) ← readClassBody f budget nestingLimit none first rest
  return (if negated then .compl s else s, depth + 1, rest)

/-! ## Repetition -/

/-- How often an item is repeated. -/
structure Count where
  least : Nat
  most : Option Nat

def readNumber (f : Flags) (cs : List Char) : Option Nat × List Char :=
  let cs := cs.dropWhile Unicode.isWhiteSpace
  let (digits, rest) := takeSkipping f Unicode.isAsciiDigit cs.length cs
  let value := digits.foldl (fun n c => n * 10 + (c.toNat - '0'.toNat)) 0
  (if digits.isEmpty || decide (Nat.pow 2 32 ≤ value) then none else some value,
    rest.dropWhile Unicode.isWhiteSpace)

/-- Reads bounds after their opening brace: a number, a number and a comma, or two numbers in
order. -/
def readCount (f : Flags) (cs : List Char) : Option (Count × List Char) := do
  let (least, rest) := readNumber f (skip f cs)
  let least ← least
  match rest with
  | '\x7d' :: rest => return (⟨least, some least⟩, rest)
  | ',' :: rest =>
    match skip f rest with
    | '\x7d' :: rest => return (⟨least, none⟩, rest)
    | rest =>
      let (most, rest) := readNumber f rest
      let most ← most
      match rest with
      | '\x7d' :: rest => if least ≤ most then some (⟨least, some most⟩, rest) else none
      | _ => none
  | _ => none

/-! ## Groups -/

structure Part where
  pattern : Pattern
  depth : Nat

/-- Something between two bars: a part, or a change of flags, which cannot be repeated. -/
inductive Item where
  | part (p : Part)
  | flags

namespace Item

def pattern? : Item → Option Pattern
  | part p => some p.pattern
  | flags => none

def depth : Item → Nat
  | part p => p.depth
  | flags => 0

end Item

/-- A group that is still open: its name, whether it counts as a group of the pattern, what
surrounds it, and the flags to return to. Alternatives and items are in reverse. -/
structure Frame where
  name : Option String
  counts : Bool
  alternatives : List Part
  items : List Item
  flags : Flags

/-- What was read so far: the open groups, innermost first, the part of the innermost group, the
flags and the group names. -/
structure State where
  frames : List Frame := []
  alternatives : List Part := []
  items : List Item := []
  flags : Flags := {}
  names : List String := []

/-- The part that some items in reverse make up. -/
def joinItems (items : List Item) : Part :=
  ⟨concat (items.reverse.filterMap Item.pattern?), nesting (items.map Item.depth)⟩

namespace State

def push (st : State) (p : Pattern) (depth : Nat) : Option State :=
  if nestingLimit < depth then none else some { st with items := .part ⟨p, depth⟩ :: st.items }

def body (st : State) : Part :=
  match joinItems st.items, st.alternatives with
  | last, [] => last
  | last, others =>
    ⟨alternation ((last :: others).reverse.map (·.pattern)),
      nesting ((last :: others).map (·.depth))⟩

/-- Repeats the last item; there must be one, and it must not be a change of flags. -/
def repeatLast (st : State) (n : Count) (greedy : Bool) : Option State :=
  match st.items with
  | .part p :: items =>
    { st with items }.push (p.pattern.times n.least n.most (greedy != st.flags.swapGreed))
      (p.depth + 1)
  | _ => none

def openGroup (st : State) (name : Option String) (counts : Bool) (inner : Flags) : State :=
  { st with
    frames := ⟨name, counts, st.alternatives, st.items, st.flags⟩ :: st.frames
    alternatives := []
    items := []
    flags := inner }

def closeGroup (st : State) : Option State :=
  match st.frames with
  | [] => none
  | frame :: frames =>
    let body := st.body
    { st with
      frames
      alternatives := frame.alternatives
      items := frame.items
      flags := frame.flags }.push
      (if frame.counts then .group frame.name body.pattern else body.pattern) (body.depth + 1)

def nextAlternative (st : State) : State :=
  { st with alternatives := joinItems st.items :: st.alternatives, items := [] }

end State

def isNameStart (c : Char) : Bool := c == '_' || Unicode.isAlphabetic c

def isNameChar (c : Char) : Bool :=
  c == '_' || c == '.' || c == '[' || c == ']' || Unicode.isAlphanumeric c

def readName (cs : List Char) : Option (String × List Char) :=
  match cs.takeWhile (· ≠ '>'), cs.dropWhile (· ≠ '>') with
  | c :: name, _ :: rest =>
    if isNameStart c && name.all isNameChar then some (String.ofList (c :: name), rest) else none
  | _, _ => none

/-- A flag as it is written. -/
inductive Flag where
  | anyCase
  | multiLine
  | dotAll
  | swapGreed
  | extended
  | unicode
deriving DecidableEq, Repr

def flag? (c : Char) : Option Flag :=
  match c with
  | 'i' => some .anyCase
  | 'm' => some .multiLine
  | 's' => some .dotAll
  | 'U' => some .swapGreed
  | 'x' => some .extended
  | 'u' => some .unicode
  | _ => none

def Flags.set (f : Flags) (on : Bool) : Flag → Flags
  | .anyCase => { f with anyCase := on }
  | .multiLine => { f with multiLine := on }
  | .dotAll => { f with dotAll := on }
  | .swapGreed => { f with swapGreed := on }
  | .extended => { f with extended := on }
  | .unicode => f

/-- Reads flags up to a colon or a closing parenthesis: each at most once, those after a hyphen
switched off. The second result tells whether there were any, the third what ended them. -/
def readFlags (f : Flags) (seen : List Flag) (off dangling : Bool) :
    List Char → Option (Flags × Bool × Char × List Char)
  | [] => none
  | c :: rest =>
    if c = ':' ∨ c = ')' then
      if dangling then none else some (f, off || !seen.isEmpty, c, rest)
    else if c = '-' then
      if off then none else readFlags f seen true true rest
    else
      match flag? c with
      | none => none
      | some flag =>
        if seen.contains flag then none
        else readFlags (f.set (!off) flag) (flag :: seen) off false rest

/-- Reads what follows an opening parenthesis: the kind of the group, or a change of flags. -/
def readGroup (st : State) (cs : List Char) : Option (State × List Char) :=
  let openNamed (cs : List Char) : Option (State × List Char) := do
    let (name, rest) ← readName cs
    if st.names.contains name then none
    else return ({ st with names := name :: st.names }.openGroup (some name) true st.flags, rest)
  match skip st.flags cs with
  | '?' :: '=' :: _ => none
  | '?' :: '!' :: _ => none
  | '?' :: '<' :: '=' :: _ => none
  | '?' :: '<' :: '!' :: _ => none
  | '?' :: 'P' :: '<' :: rest => openNamed rest
  | '?' :: '<' :: rest => openNamed rest
  | '?' :: rest => do
    let (inner, any, stop, rest) ← readFlags st.flags [] false false rest
    if stop = ':' then return (st.openGroup none false inner, rest)
    else if any then return ({ st with flags := inner, items := .flags :: st.items }, rest)
    else none
  | rest => some (st.openGroup none true st.flags, rest)

/-! ## Patterns -/

/-- A character that stands for itself. -/
def literal (f : Flags) (c : Char) : Pattern :=
  if f.anyCase && decide (CharSet.caseForms c ≠ [c]) then .set (.anyCase c c) else ofChar c

def escapePattern (f : Flags) : Escape → Pattern
  | .char c => literal f c
  | .set s => .set s
  | .check a => .check a

/-- The characters that a dot stands for. -/
def dot (f : Flags) : Pattern := .set (if f.dotAll then .all else .compl (.single '\n'))

/-- A question mark after a repetition makes it lazy. -/
def readGreed : List Char → Bool × List Char
  | '?' :: rest => (false, rest)
  | rest => (true, rest)

def readStep (budget : Nat) (st : State) (c : Char) (rest : List Char) :
    Option (State × List Char) :=
  let f := st.flags
  let pushed (p : Pattern) (rest : List Char) : Option (State × List Char) :=
    (st.push p 0).map fun st => (st, rest)
  let repeated (n : Count) (rest : List Char) : Option (State × List Char) :=
    let (greedy, rest) := readGreed rest
    (st.repeatLast n greedy).map fun st => (st, rest)
  match c with
  | '(' => readGroup st rest
  | ')' => st.closeGroup.map fun st => (st, rest)
  | '|' => some (st.nextAlternative, rest)
  | '[' => do
    let (s, depth, rest) ← readClass f budget rest
    return (← st.push (ofSet s) depth, rest)
  | '?' => repeated ⟨0, some 1⟩ rest
  | '*' => repeated ⟨0, none⟩ rest
  | '+' => repeated ⟨1, none⟩ rest
  | '\x7b' => do
    let (n, rest) ← readCount f rest
    repeated n (skip f rest)
  | '\\' => do
    let (e, rest) ← readEscape f rest
    pushed (escapePattern f e) rest
  | '.' => pushed (dot f) rest
  | '^' => pushed (.check (if f.multiLine then .lineStart else .textStart)) rest
  | '$' => pushed (.check (if f.multiLine then .lineEnd else .textEnd)) rest
  | c => pushed (literal f c) rest

def readAll : Nat → State → List Char → Option State
  | 0, _, _ => none
  | budget + 1, st, cs =>
    match skip st.flags cs with
    | [] => some st
    | c :: rest => do
      let (st, rest) ← readStep budget st c rest
      readAll budget st rest

end Reader

def read? (text : String) : Option Pattern := do
  let cs := text.toList
  let st ← Reader.readAll (cs.length + 1) {} cs
  if st.frames.isEmpty && decide (st.body.depth ≤ Reader.nestingLimit) then some st.body.pattern
  else none

end BracketColoring.Pattern

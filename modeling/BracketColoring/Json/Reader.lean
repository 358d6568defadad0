import BracketColoring.Json

/-!
# Reading JSON

The reader is strict: blanks are the space, the tab, the line feed and the carriage return; control
characters and lone surrogates are refused in strings, leading zeros in numbers, and anything but
blanks after the value. Arrays and objects may be nested `maxDepth` deep. Nested values recurse on
the depth that is left; the loops over digits, members and elements recurse on a budget, for which
the length of the text is enough because every turn uses up a character.
-/

namespace BracketColoring.Json

/-- A reader takes its value from the front of the text and returns the rest. -/
abbrev Reader (α : Type) := List Char → Option (α × List Char)

/-- The deepest nesting of arrays and objects. -/
def maxDepth : Nat := 127

def isBlank (c : Char) : Bool := c == ' ' || c == '\t' || c == '\n' || c == '\r'

def skipBlanks (cs : List Char) : List Char := cs.dropWhile isBlank

def isDigit (c : Char) : Bool := decide ('0' ≤ c) && decide (c ≤ '9')

def digitValue (c : Char) : Nat := c.toNat - '0'.toNat

/-! ## Numbers -/

def maxSignificand : Nat := Nat.pow 2 64 - 1

structure Scientific where
  significand : Nat
  exponent : Int

/-- Takes digits while the significand stays in range; the first digit that does not fit ends it. -/
def takeDigits (significand : Nat) (exponent step : Int) : List Char → Scientific × List Char
  | [] => (⟨significand, exponent⟩, [])
  | c :: rest =>
    if isDigit c && decide (significand * 10 + digitValue c ≤ maxSignificand) then
      takeDigits (significand * 10 + digitValue c) (exponent + step) step rest
    else (⟨significand, exponent⟩, c :: rest)

/-- Reads an optional fraction. Digits that no longer fit the significand are dropped. -/
def readFraction (s : Scientific) : List Char → Option (Scientific × List Char)
  | '.' :: cs =>
    match cs with
    | [] => none
    | c :: _ =>
      if isDigit c then
        let (t, rest) := takeDigits s.significand s.exponent (-1) cs
        some (t, rest.dropWhile isDigit)
      else none
  | cs => some (s, cs)

def maxExponent : Nat := Nat.pow 2 31 - 1

/-- A written exponent: its sign and size, or nothing for the size when it is out of range. -/
structure Exponent where
  negative : Bool
  size : Option Nat

/-- Takes the digits of an exponent; the size is lost once it is out of range. -/
def takeExponent (size : Option Nat) : List Char → Option Nat × List Char
  | [] => (size, [])
  | c :: rest =>
    if isDigit c then
      let next := size.bind fun n =>
        let m := n * 10 + digitValue c
        if m ≤ maxExponent then some m else none
      takeExponent next rest
    else (size, c :: rest)

def readExponent : List Char → Option (Option Exponent × List Char)
  | c :: cs =>
    if c = 'e' ∨ c = 'E' then
      let (negative, cs) :=
        match cs with
        | '+' :: rest => (false, rest)
        | '-' :: rest => (true, rest)
        | rest => (false, rest)
      match cs with
      | [] => none
      | d :: _ =>
        if isDigit d then
          let (size, rest) := takeExponent (some 0) cs
          some (some ⟨negative, size⟩, rest)
        else none
    else some (none, c :: cs)
  | [] => some (none, [])

/-- The double with the given parts, unless it is too large. An exponent out of range makes zero of
anything when negative, and of zero when positive. -/
def makeReal? (negative : Bool) (s : Scientific) : Option Exponent → Option Number
  | none => (Binary64.ofScientific? negative s.significand s.exponent).map .real
  | some ⟨minus, some size⟩ =>
    let shift : Int := if minus then -(size : Int) else size
    (Binary64.ofScientific? negative s.significand (s.exponent + shift)).map .real
  | some ⟨minus, none⟩ =>
    if minus || s.significand == 0 then some (.real { Binary64.zero with negative }) else none

/-- The integer of a significand: a double when it is below the smallest 64-bit integer, or when a
zero has a sign. -/
def makeInteger? (negative : Bool) (significand : Nat) : Option Number :=
  if negative then
    if significand = 0 ∨ Nat.pow 2 63 < significand then
      (Binary64.ofScientific? true significand 0).map .real
    else some (.integer (-(significand : Int)))
  else some (.integer significand)

/-- The number after an integral part; `exact` tells that all its digits were kept. -/
def finishNumber (negative exact : Bool) (s : Scientific) (cs : List Char) :
    Option (Number × List Char) := do
  let (t, afterFraction) ← readFraction s cs
  let (exponent, rest) ← readExponent afterFraction
  let written := cs.head? = some '.' || exponent.isSome
  let value ←
    if written || !exact then makeReal? negative t exponent
    else makeInteger? negative s.significand
  return (value, rest)

def readMagnitude (negative : Bool) : Reader Number
  | '0' :: rest =>
    match rest with
    | c :: _ => if isDigit c then none else finishNumber negative true ⟨0, 0⟩ rest
    | [] => finishNumber negative true ⟨0, 0⟩ []
  | c :: rest =>
    if isDigit c then
      let (s, after) := takeDigits (digitValue c) 0 0 rest
      let dropped := after.takeWhile isDigit
      finishNumber negative dropped.isEmpty ⟨s.significand, dropped.length⟩
        (after.dropWhile isDigit)
    else none
  | [] => none

def readNumber : Reader Number
  | '-' :: rest => readMagnitude true rest
  | cs => readMagnitude false cs

/-! ## Strings -/

def hexValue? (c : Char) : Option Nat :=
  if decide ('0' ≤ c) && decide (c ≤ '9') then some (c.toNat - '0'.toNat)
  else if decide ('a' ≤ c) && decide (c ≤ 'f') then some (c.toNat - 'a'.toNat + 10)
  else if decide ('A' ≤ c) && decide (c ≤ 'F') then some (c.toNat - 'A'.toNat + 10)
  else none

def hexUnit? (a b c d : Char) : Option Nat := do
  let a ← hexValue? a
  let b ← hexValue? b
  let c ← hexValue? c
  let d ← hexValue? d
  return ((a * 16 + b) * 16 + c) * 16 + d

def shortEscape? (c : Char) : Option Char :=
  if c = '"' then some '"'
  else if c = '\\' then some '\\'
  else if c = '/' then some '/'
  else if c = 'b' then some '\x08'
  else if c = 'f' then some '\x0c'
  else if c = 'n' then some '\n'
  else if c = 'r' then some '\r'
  else if c = 't' then some '\t'
  else none

def joinSurrogates? (high low : Nat) : Option Char :=
  if 0xDC00 ≤ low ∧ low ≤ 0xDFFF then
    some (Char.ofNat (0x10000 + (high - 0xD800) * 0x400 + (low - 0xDC00)))
  else none

/-- Reads a string after its opening quote, given what was read in reverse. -/
def readStringBody (acc : List Char) : Reader String
  | '"' :: rest => some (String.ofList acc.reverse, rest)
  | '\\' :: 'u' :: a :: b :: c :: d :: rest => do
    let unit ← hexUnit? a b c d
    if 0xDC00 ≤ unit ∧ unit ≤ 0xDFFF then none
    else if 0xD800 ≤ unit ∧ unit ≤ 0xDBFF then
      match rest with
      | '\\' :: 'u' :: e :: f :: g :: h :: rest' => do
        let low ← hexUnit? e f g h
        let joined ← joinSurrogates? unit low
        readStringBody (joined :: acc) rest'
      | _ => none
    else readStringBody (Char.ofNat unit :: acc) rest
  | '\\' :: c :: rest => do
    let e ← shortEscape? c
    readStringBody (e :: acc) rest
  | c :: rest => if c.toNat < 0x20 || c == '\\' then none else readStringBody (c :: acc) rest
  | [] => none

/-! ## Values -/

def readElements (element : Reader Json) : Nat → List Json → Reader (List Json)
  | 0, _, _ => none
  | budget + 1, acc, cs =>
    match skipBlanks cs with
    | ']' :: rest => some (acc.reverse, rest)
    | ',' :: rest => do
      let (v, rest) ← element (skipBlanks rest)
      readElements element budget (v :: acc) rest
    | _ => none

def readArray (element : Reader Json) (budget : Nat) : Reader Json := fun cs =>
  match skipBlanks cs with
  | ']' :: rest => some (.array [], rest)
  | cs => do
    let (v, rest) ← element cs
    let (vs, rest) ← readElements element budget [v] rest
    return (.array vs, rest)

def readMember (element : Reader Json) : Reader (String × Json)
  | '"' :: cs => do
    let (key, rest) ← readStringBody [] cs
    match skipBlanks rest with
    | ':' :: rest => do
      let (value, rest) ← element (skipBlanks rest)
      return ((key, value), rest)
    | _ => none
  | _ => none

def readMembers (element : Reader Json) : Nat → List (String × Json) → Reader (List (String × Json))
  | 0, _, _ => none
  | budget + 1, acc, cs =>
    match skipBlanks cs with
    | '\x7d' :: rest => some (acc.reverse, rest)
    | ',' :: rest => do
      let (m, rest) ← readMember element (skipBlanks rest)
      readMembers element budget (m :: acc) rest
    | _ => none

def readObject (element : Reader Json) (budget : Nat) : Reader Json := fun cs =>
  match skipBlanks cs with
  | '\x7d' :: rest => some (ofMembers [], rest)
  | cs => do
    let (m, rest) ← readMember element cs
    let (ms, rest) ← readMembers element budget [m] rest
    return (ofMembers ms, rest)

def readScalar : Reader Json
  | 'n' :: 'u' :: 'l' :: 'l' :: rest => some (.null, rest)
  | 't' :: 'r' :: 'u' :: 'e' :: rest => some (.bool true, rest)
  | 'f' :: 'a' :: 'l' :: 's' :: 'e' :: rest => some (.bool false, rest)
  | '"' :: rest => (readStringBody [] rest).map fun (s, rest) => (.string s, rest)
  | cs => (readNumber cs).map fun (n, rest) => (.number n, rest)

/-- Reads a value with at most `depth` nested arrays and objects. -/
def readValue (budget : Nat) : Nat → Reader Json
  | 0, '[' :: _ => none
  | 0, '\x7b' :: _ => none
  | depth + 1, '[' :: rest => readArray (readValue budget depth) budget rest
  | depth + 1, '\x7b' :: rest => readObject (readValue budget depth) budget rest
  | _, cs => readScalar cs

def read? (text : String) : Option Json := do
  let cs := text.toList
  let (value, rest) ← readValue (cs.length + 1) maxDepth (skipBlanks cs)
  if (skipBlanks rest).isEmpty then some value else none

end BracketColoring.Json

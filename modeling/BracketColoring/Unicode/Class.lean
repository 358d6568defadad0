import BracketColoring.Unicode.Alphabetic
import BracketColoring.Unicode.Number
import BracketColoring.Unicode.Mark
import BracketColoring.Unicode.Print

/-!
# Character classes

Each class is decided by comparisons for ASCII characters and by a table of intervals for the rest.
The classes that patterns use follow version 16 of Unicode: digits, word characters and white space.
The others follow version 17.
-/

namespace BracketColoring.Unicode

/-- Whether a character lies in one of the intervals. -/
def inRanges (ranges : List (Nat × Nat)) (c : Char) : Bool :=
  ranges.any fun r => decide (r.1 ≤ c.toNat) && decide (c.toNat ≤ r.2)

def isAscii (c : Char) : Bool := decide (c.toNat < 128)

def isAsciiDigit (c : Char) : Bool := decide ('0' ≤ c) && decide (c ≤ '9')

def isAsciiLetter (c : Char) : Bool :=
  (decide ('a' ≤ c) && decide (c ≤ 'z')) || (decide ('A' ≤ c) && decide (c ≤ 'Z'))

def isAlphabetic (c : Char) : Bool :=
  if isAscii c then isAsciiLetter c
  else inRanges alphabeticRanges c || inRanges recentAlphabeticRanges c

/-- Letters and every kind of number. -/
def isAlphanumeric (c : Char) : Bool :=
  if isAscii c then isAsciiLetter c || isAsciiDigit c
  else isAlphabetic c || inRanges numberRanges c || inRanges recentNumberRanges c

/-- Decimal digits of any script. -/
def isDigit (c : Char) : Bool :=
  if isAscii c then isAsciiDigit c else inRanges decimalNumberRanges c

/-- Letters, marks, decimal digits, connectors such as the underscore, and the two joiners. -/
def isWord (c : Char) : Bool :=
  if isAscii c then isAsciiLetter c || isAsciiDigit c || c == '_'
  else inRanges alphabeticRanges c || inRanges markRanges c || inRanges decimalNumberRanges c
    || inRanges connectorRanges c || c == '\u200c' || c == '\u200d'

/-- Blanks, tabs, line ends and the other separators that count as white space. -/
def isWhiteSpace (c : Char) : Bool :=
  if isAscii c then c == ' ' || (decide ('\t' ≤ c) && decide (c ≤ '\r'))
  else inRanges whiteSpaceRanges c

/-- Characters that combine with the one before them. -/
def isGraphemeExtend (c : Char) : Bool :=
  if isAscii c then false else inRanges graphemeExtendRanges c

/-- Characters with a shape of their own, and the blank. -/
def isPrintable (c : Char) : Bool :=
  if isAscii c then decide (' ' ≤ c) && decide (c ≤ '~') else !inRanges unprintableRanges c

end BracketColoring.Unicode

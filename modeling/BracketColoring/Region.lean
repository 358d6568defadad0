import BracketColoring.Pattern.Engine
import BracketColoring.Token

/-!
# Tokens by regions

A region lexer finds regions such as comments and strings by patterns, and takes the runs of symbols
between the regions for punctuation. Its rules are put together as text into one alternation of
named groups, so that at each place the first rule that matches wins; a match in which no rule's
group took part belongs to the gaps. The pattern for punctuation is searched in each gap on its own.

The matches are those of an engine. They are cut out of the text by their bytes, and where these do
not stand between characters there are no tokens (`Lexer.tokenize?`).
-/

namespace BracketColoring

/-- A pattern for a kind of region. -/
structure Rule where
  pattern : String
  category : Category
deriving DecidableEq, Repr, Inhabited

/-- A lexer by regions, with the patterns that an engine has compiled for it. -/
structure Lexer (Rx : Type) where
  rules : List Rule
  regions : Option Rx
  punctuation : Rx
deriving DecidableEq, Repr, Inhabited

abbrev RegionLexer : Type := Lexer Program

open PatternEngine (compile? spans)

namespace RegionLexer

/-- Runs of characters that are neither part of a word nor white space. -/
def defaultPunctuation : String := "[^\\w\\s]+"

/-- The name of the group of a rule, by the rule's index. -/
def groupName (index : Nat) : String := "__r" ++ toString index

def regionPattern (rules : List Rule) : String :=
  "|".intercalate (rules.zipIdx.map fun (rule, i) =>
    "(?P<" ++ groupName i ++ ">" ++ rule.pattern ++ ")")

/-- The lexer of some rules, if they and the pattern for punctuation can be compiled. -/
def ofRules? {Rx : Type} [PatternEngine Rx] (rules : List Rule)
    (punctuation : String := defaultPunctuation) : Option (Lexer Rx) := do
  let regions ← if rules.isEmpty then some none else (compile? (regionPattern rules)).map some
  let punctuation ← compile? punctuation
  return { rules, regions, punctuation }

end RegionLexer

namespace Lexer

open RegionLexer (groupName)

variable {Rx : Type}

/-- The category of the first rule whose group is one of some groups. -/
def category? (l : Lexer Rx) (names : List String) : Option Category :=
  (l.rules.zipIdx.find? fun (_, i) => names.contains (groupName i)).map fun (rule, _) =>
    rule.category

/-- The text between two bytes as a token, if there is any. -/
def plainBetween? (text : List Char) (start stop : Nat) : Option (List Token) :=
  if start < stop then (slice? text start stop).map fun piece => [.plain piece] else some []

/-- The tokens of a gap from a byte on, given the matches for punctuation behind it. -/
def gapTokensFrom? (gap : List Char) (last : Nat) : List Span → Option (List Token)
  | [] => plainBetween? gap last (byteCount gap)
  | m :: ms => do
    let before ← plainBetween? gap last m.start
    let piece ← slice? gap m.start m.stop
    let later ← gapTokensFrom? gap m.stop ms
    return before ++ .punctuation piece :: later

variable [PatternEngine Rx]

def tokenizeGap? (l : Lexer Rx) (gap : List Char) : Option (List Token) :=
  gapTokensFrom? gap 0 (spans l.punctuation false gap)

/-- The tokens of a text from a byte on, given the matches behind it. Empty matches and those of no
rule are passed over, so that they belong to the next gap. -/
def tokensFrom? (l : Lexer Rx) (text : List Char) (cursor : Nat) :
    List Span → Option (List Token)
  | [] => do l.tokenizeGap? (← slice? text cursor (byteCount text))
  | m :: ms =>
    let category := if m.start = m.stop then none else l.category? m.names
    match category with
    | none => l.tokensFrom? text cursor ms
    | some category => do
      let before ← l.tokenizeGap? (← slice? text cursor m.start)
      let piece ← slice? text m.start m.stop
      let later ← l.tokensFrom? text m.stop ms
      return before ++ .leaf category piece :: later

/-- The matches of the rules in a text. Without rules there are none. -/
def regionSpans (l : Lexer Rx) (text : List Char) : List Span :=
  match l.regions with
  | some p => spans p true text
  | none => []

def tokenize? (l : Lexer Rx) (text : List Char) : Option Token :=
  (l.tokensFrom? text 0 (l.regionSpans text)).map .list

def tokenize (l : Lexer Rx) (text : List Char) : Token := (l.tokenize? text).getD (.list [])

instance : Tokenizer (Lexer Rx) := ⟨fun l text => (.ok (l.tokenize text.toList), l)⟩

end Lexer

end BracketColoring

import BracketColoring.Pattern.Reader
import BracketColoring.Pattern.Search
import BracketColoring.Text.Bytes

/-!
# Engines for patterns

An engine compiles the texts of patterns, and tells of a compiled pattern where it matches in a text.
What is done with the matches does not depend on the engine. Programs are the engine of this library;
which patterns it reads, and where it reads them in its own way, stands with the reader.
-/

namespace BracketColoring

/-- A match of a pattern in a text: the bytes where it starts and stops, and the names of the groups
that took part in it. -/
structure Span where
  start : Nat
  stop : Nat
  names : List String
deriving DecidableEq, Repr, Inhabited

class PatternEngine (Rx : Type) where
  compile? : String → Option Rx
  /-- All matches of a pattern in a text. The names of groups are told only if they are asked for. -/
  spans : Rx → Bool → List Char → List Span

/-- The spans of some matches. `pos` is the byte where the first gap starts. -/
def Match.spans : Nat → List Match → List Span
  | _, [] => []
  | pos, m :: rest =>
    let start := pos + byteCount m.gap
    let stop := start + byteCount m.text
    ⟨start, stop, m.names⟩ :: spans stop rest

/-- The program of the text of a pattern, if it is one. -/
def Program.ofText? (text : String) : Option Program := (Pattern.read? text).map Program.ofPattern

instance : PatternEngine Program where
  compile? := Program.ofText?
  spans p groups text := Match.spans 0 (p.search groups text).1

end BracketColoring

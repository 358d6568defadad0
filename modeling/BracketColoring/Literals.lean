import BracketColoring.Pair
import BracketColoring.Text.Bytes

/-!
# The literals of a list of pairs

All opening and closing literals of some pairs are looked for at once. Where several literals start
at one place the longest wins; a literal that several pairs use belongs to the first of them, and
within a pair to the opening. `Literals.pattern` writes the search as an alternation, longest literal
first, with every character that means something in a pattern escaped.
-/

namespace BracketColoring

structure Binding where
  literal : String
  pair : PairId
  role : Role
deriving DecidableEq, Repr, Inhabited

/-- The distinct literals of some pairs with what they stand for, longest literal first. -/
structure Literals where
  bindings : List Binding
deriving DecidableEq, Repr, Inhabited

namespace Literals

/-- A literal comes before another when it has more bytes, or as many and a smaller text. -/
def precedes (a b : String) : Bool :=
  decide (b.utf8ByteSize < a.utf8ByteSize) ||
    (a.utf8ByteSize == b.utf8ByteSize && decide (a < b))

/-- Puts a binding where its literal belongs. -/
def place (b : Binding) : List Binding → List Binding
  | [] => [b]
  | d :: rest => if precedes b.literal d.literal then b :: d :: rest else d :: place b rest

/-- Adds a binding unless its literal has one already. -/
def register (t : Literals) (b : Binding) : Literals :=
  if t.bindings.any (fun old => old.literal == b.literal) then t else ⟨place b t.bindings⟩

def ofPair (d : PairDefinition) : List Binding :=
  [⟨d.opening, d.id, .opening⟩, ⟨d.closing, d.id, .closing⟩]

/-- The literals of some pairs; of two bindings of one literal the first counts. -/
def ofPairs (pairs : List PairDefinition) : Literals := (pairs.flatMap ofPair).foldl register ⟨[]⟩

def resolve? (t : Literals) (literal : String) : Option (PairId × Role) :=
  (t.bindings.find? fun b => b.literal == literal).map fun b => (b.pair, b.role)

def size (t : Literals) : Nat := t.bindings.length

/-! ## Search -/

/-- A literal found in a text, with the text between it and the literal before it. -/
structure Found where
  gap : List Char
  binding : Binding
deriving DecidableEq, Repr, Inhabited

/-- The first of the literals that the text starts with. -/
def startOf? (t : Literals) (text : List Char) : Option Binding :=
  t.bindings.find? fun b => b.literal.toList.isPrefixOf text

/-- Searches a text from left to right, passing over each literal found. `skip` counts the
characters of the last literal that are still to be passed over, and `gap` holds the characters
since then, in reverse. The characters after the last literal are the second result. -/
def scanFrom (t : Literals) (skip : Nat) (gap : List Char) : List Char → List Found × List Char
  | [] => ([], gap.reverse)
  | c :: rest =>
    match skip with
    | n + 1 => scanFrom t n gap rest
    | 0 =>
      match t.startOf? (c :: rest) with
      | some b =>
        let (found, tail) := scanFrom t (b.literal.length - 1) [] rest
        (⟨gap.reverse, b⟩ :: found, tail)
      | none => scanFrom t 0 (c :: gap) rest

/-- The literals of a text in order, and what follows the last one. -/
def scan (t : Literals) (text : List Char) : List Found × List Char := t.scanFrom 0 [] text

/-- The bytes from which up to which each found literal extends, when the first gap starts at
`offset`. -/
def Found.byteSpans (offset : Nat) : List Found → List (Nat × Nat)
  | [] => []
  | f :: rest =>
    let start := offset + byteCount f.gap
    let stop := start + f.binding.literal.utf8ByteSize
    (start, stop) :: Found.byteSpans stop rest

def byteSpans (t : Literals) (text : String) : List (Nat × Nat) :=
  Found.byteSpans 0 (t.scan text.toList).1

/-! ## The search as a pattern -/

/-- The characters that mean something in a pattern. -/
def metaCharacters : List Char :=
  ['\\', '.', '+', '*', '?', '(', ')', '|', '[', ']', '\x7b', '\x7d', '^', '$', '#', '&', '-', '~']

/-- A text with a backslash before every character that means something in a pattern. -/
def escape (text : List Char) : List Char :=
  text.flatMap fun c => if metaCharacters.contains c then ['\\', c] else [c]

/-- The alternation of all literals, longest first. -/
def pattern (t : Literals) : String :=
  "|".intercalate (t.bindings.map fun b => String.ofList (escape b.literal.toList))

end Literals

end BracketColoring

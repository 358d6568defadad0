import BracketColoring.Ordered
import BracketColoring.Text.Bytes
import BracketColoring.Token
import BracketColoring.Unicode.Class

/-!
# Tokens from a syntax tree

A grammar's parser gives a tree of nodes, each with a kind and the bytes it extends over. Flattening
walks the tree from the root in document order and emits its leaves; nodes of the kinds that are
configured as strings and comments are emitted whole and not entered. Bytes between the emitted nodes
become text, so that the tokens put together are the document. A node never goes back behind what was
emitted already, whatever its bytes say.
-/

namespace BracketColoring

/-- A node of a syntax tree: its kind, whether the grammar names it, its bytes and its children. -/
inductive SyntaxNode where
  | mk (kind : String) (isNamed : Bool) (start stop : Nat) (children : List SyntaxNode)
deriving Repr, Inhabited

/-- The kinds of nodes that are emitted whole, in increasing order. -/
structure OpaqueKinds where
  strings : List String := []
  comments : List String := []
deriving DecidableEq, Repr, Inhabited

namespace OpaqueKinds

def addStrings (k : OpaqueKinds) (kinds : List String) : OpaqueKinds :=
  { k with strings := Ordered.insertAll kinds k.strings }

def addComments (k : OpaqueKinds) (kinds : List String) : OpaqueKinds :=
  { k with comments := Ordered.insertAll kinds k.comments }

/-- Adds the kinds of the Rust grammar. -/
def addRustKinds (k : OpaqueKinds) : OpaqueKinds :=
  (k.addStrings ["string_literal", "raw_string_literal", "char_literal"]).addComments
    ["line_comment", "block_comment"]

/-- The category of a kind that is emitted whole; a kind that is both is a string. -/
def category? (k : OpaqueKinds) (kind : String) : Option Category :=
  if k.strings.contains kind then some .string
  else if k.comments.contains kind then some .comment
  else none

end OpaqueKinds

namespace SyntaxNode

/-! ## Flattening -/

/-- The piece of a document between two bytes. -/
def slice (text : List Char) (start stop : Nat) : Except TokenizeError (List Char) :=
  match slice? text start stop with
  | some piece => .ok piece
  | none => .error (.failed ("node range " ++ toString start ++ ".." ++ toString stop
      ++ " does not fall on character boundaries"))

/-- Whether a leaf is made of symbols only. -/
def isSymbolic (leaf : List Char) : Bool :=
  !leaf.isEmpty &&
    leaf.all fun c => !Unicode.isAlphanumeric c && !Unicode.isWhiteSpace c && c != '_'

/-- The text between what was emitted and the next node. -/
def gapTokens (text : List Char) (start stop : Nat) : Except TokenizeError (List Token) :=
  if start < stop then do return [.plain (← slice text start stop)] else return []

/-- The token of a leaf: a named leaf is of its kind, symbols are punctuation. -/
def leafToken (kind : String) (isNamed : Bool) (leaf : List Char) : Token :=
  if isNamed then .leaf (.other kind) leaf
  else if isSymbolic leaf then .punctuation leaf
  else .plain leaf

/-- What has been emitted: up to which byte, and the tokens in reverse. -/
structure Emitted where
  upTo : Nat
  tokens : List Token

/-- Emits the rest of a node behind what was emitted already, after the gap before it. -/
def emit (text : List Char) (e : Emitted) (start stop : Nat) (token : List Char → Token) :
    Except TokenizeError Emitted :=
  let start := max start e.upTo
  if start < stop then do
    let gap ← gapTokens text e.upTo start
    let piece ← slice text start stop
    return ⟨stop, token piece :: (gap.reverse ++ e.tokens)⟩
  else return e

def walk (k : OpaqueKinds) (text : List Char) (e : Emitted) :
    List (List SyntaxNode) → Except TokenizeError Emitted
  | [] => .ok e
  | [] :: stack => walk k text e stack
  | (.mk kind isNamed start stop children :: siblings) :: stack =>
    match k.category? kind, children with
    | some category, _ => do
      let e ← emit text e start stop (.leaf category)
      walk k text e (siblings :: stack)
    | none, [] => do
      let e ← emit text e start stop (leafToken kind isNamed)
      walk k text e (siblings :: stack)
    | none, child :: children => walk k text e ((child :: children) :: siblings :: stack)
termination_by stack => sizeOf stack

/-- The tokens of a document with a given syntax tree. -/
def flatten (k : OpaqueKinds) (root : SyntaxNode) (text : String) : Except TokenizeError Token := do
  let e ← walk k text.toList ⟨0, []⟩ [[root]]
  let gap ← gapTokens text.toList e.upTo text.utf8ByteSize
  return .list (e.tokens.reverse ++ gap)

end SyntaxNode

/-- A tokenizer made of a grammar's parser and the kinds of nodes that are emitted whole. -/
structure GrammarTokenizer where
  kinds : OpaqueKinds
  parse : String → Option SyntaxNode

instance : Tokenizer GrammarTokenizer :=
  ⟨fun g text =>
    match g.parse text with
    | some root => (root.flatten g.kinds text, g)
    | none => (.error (.failed "tree-sitter returned no tree"), g)⟩

/-- The kinds that are emitted whole by language, in increasing order of the language names. -/
abbrev GrammarLanguages := List (String × OpaqueKinds)

namespace GrammarLanguages

/-- Gives a language its kinds, in place of those it had. -/
def register (table : GrammarLanguages) (language : String) (kinds : OpaqueKinds) :
    GrammarLanguages :=
  Ordered.insertEntry language kinds table

def names (table : GrammarLanguages) : List String := table.map (·.1)

def lookup? (table : GrammarLanguages) (language : String) : Option OpaqueKinds :=
  (table.find? fun entry => entry.1 = language).map (·.2)

end GrammarLanguages

end BracketColoring

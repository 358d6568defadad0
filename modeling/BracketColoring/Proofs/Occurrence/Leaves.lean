import BracketColoring.Occurrence

/-!
# Leaves of a token tree

The leaves of a token tree from left to right are the pieces of its document. The walk over a tree
looks at each leaf once, in this order: `Walk.run_eq` removes the stack, so that all that is said
about the occurrences of a tree is said by induction on a list of leaves.
-/

namespace BracketColoring

/-- A leaf of a token tree, and whether bracket literals are looked for in it. -/
structure Leaf where
  searched : Bool
  text : List Char
deriving DecidableEq, Repr

namespace Token

mutual

/-- The leaves of a token tree. Only a text that stands directly in a punctuation node is
searched. -/
def leaves : Token → List Leaf
  | .text s => [⟨false, s.toList⟩]
  | .list children => leavesOf children
  | .node .punctuation (.text s) => [⟨true, s.toList⟩]
  | .node _ inner => leaves inner

/-- The leaves of several trees in a row. -/
def leavesOf : List Token → List Leaf
  | [] => []
  | root :: rest => leaves root ++ leavesOf rest

end

/-- The texts of all leaves, put together. -/
def leafText (root : Token) : List Char := root.leaves.flatMap (·.text)

@[simp] theorem leafText_text (content : String) : leafText (.text content) = content.toList := by
  simp [leafText, leaves]

@[simp] theorem leafText_list (children : List Token) :
    leafText (.list children) = children.flatMap leafText := by
  have whole : (leavesOf children).flatMap (·.text) = children.flatMap leafText := by
    induction children with
    | nil => rfl
    | cons root rest ih => simp [leavesOf, leafText, ih]
  simpa [leafText, leaves] using whole

@[simp] theorem leafText_node (category : Category) (inner : Token) :
    leafText (.node category inner) = leafText inner := by
  cases category <;> cases inner <;> simp [leafText, leaves]

@[simp] theorem leafText_plain (text : List Char) : (plain text).leafText = text := by
  simp [plain]

@[simp] theorem leafText_leaf (category : Category) (text : List Char) :
    (leaf category text).leafText = text := by
  simp [leaf]

@[simp] theorem leafText_punctuation (text : List Char) : (punctuation text).leafText = text := by
  simp [punctuation]

end Token

namespace Literals

def mapLeaf (t : Literals) (p : Position) (leaf : Leaf) : List Occurrence × Position :=
  if leaf.searched then t.occurrencesIn p leaf.text else ([], p.advance leaf.text)

/-- The occurrences in some leaves of which the first starts at `p`. -/
def mapLeaves (t : Literals) (p : Position) : List Leaf → Mapped
  | [] => ⟨[], p⟩
  | leaf :: rest =>
    let (os, q) := t.mapLeaf p leaf
    let mapped := mapLeaves t q rest
    ⟨os ++ mapped.occurrences, mapped.finish⟩

theorem mapLeaves_append (t : Literals) (p : Position) (xs ys : List Leaf) :
    t.mapLeaves p (xs ++ ys) =
      ⟨(t.mapLeaves p xs).occurrences ++ (t.mapLeaves (t.mapLeaves p xs).finish ys).occurrences,
        (t.mapLeaves (t.mapLeaves p xs).finish ys).finish⟩ := by
  induction xs generalizing p with
  | nil => rfl
  | cons leaf rest ih => simp only [List.cons_append, mapLeaves, ih, List.append_assoc]

end Literals

theorem Token.leavesOf_append (xs ys : List Token) :
    leavesOf (xs ++ ys) = leavesOf xs ++ leavesOf ys := by
  induction xs with
  | nil => rfl
  | cons root rest ih => simp only [List.cons_append, leavesOf, ih, List.append_assoc]

namespace Walk

variable {t : Literals}

/-- What a walk finds in the leaves that are still to come. -/
def rest (t : Literals) (w : Walk) : Mapped := t.mapLeaves w.place (Token.leavesOf w.stack)

/-- A turn moves what it finds from the leaves to come to the occurrences found. -/
theorem rest_visit (t : Literals) (w : Walk) (token : Token) :
    w.found.reverse ++ (t.mapLeaves w.place (token.leaves ++ Token.leavesOf w.stack)).occurrences =
        (w.visit t token).found.reverse ++ ((w.visit t token).rest t).occurrences ∧
      (t.mapLeaves w.place (token.leaves ++ Token.leavesOf w.stack)).finish =
        ((w.visit t token).rest t).finish := by
  fun_cases visit t w token with
  | case1 s => simp [rest, Token.leaves, Literals.mapLeaves, Literals.mapLeaf]
  | case2 children => simp [rest, Token.leaves, Token.leavesOf_append]
  | case3 s os q searched =>
    simp [rest, Token.leaves, Literals.mapLeaves, Literals.mapLeaf, searched]
  | case4 category inner notSearched => simp [rest, Token.leaves, Token.leavesOf]

/-- The walk visits the leaves of the tokens on its stack, in order. -/
theorem run_eq (t : Literals) (w : Walk) :
    run t w = ⟨w.found.reverse ++ (w.rest t).occurrences, (w.rest t).finish⟩ := by
  fun_induction run t w with
  | case1 w next turned ih =>
    unfold turn? at turned
    split at turned
    · cases turned
    · next token stack top =>
      cases turned
      obtain ⟨occurrences, finish⟩ := rest_visit t { w with stack } token
      rw [ih, ← occurrences, ← finish, rest, top]
      rfl
  | case2 w turned =>
    unfold turn? at turned
    split at turned
    · next top => simp [rest, top, Token.leavesOf, Literals.mapLeaves]
    · cases turned

end Walk

theorem Token.occurrences_eq_mapLeaves (root : Token) (t : Literals) :
    root.occurrences t = t.mapLeaves .origin root.leaves := by
  simp [occurrences, Walk.run_eq, Walk.rest, Walk.start, leavesOf]

end BracketColoring

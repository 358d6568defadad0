import BracketColoring.Proofs.Occurrence.Leaves
import BracketColoring.Proofs.Settings.Valid

/-!
# The walk as a recursion

What a walk with a stack finds in a tree is also found by recursion on the tree: a text moves the
position, the tokens of a list are taken from left to right, and a node is passed over to what it
wraps, unless it is punctuation directly around a text. The walk over a tree takes exactly
`Token.turns` turns, and nodes and lists around a subtree make no difference to what it finds.
-/

namespace BracketColoring

namespace Token

mutual

/-- The occurrences in a token tree that starts at `p`, by recursion on the tree. -/
def mapFrom (t : Literals) (p : Position) : Token → Mapped
  | .text s => ⟨[], p.advance s.toList⟩
  | .list children => mapAllFrom t p children
  | .node .punctuation (.text s) =>
    let (os, q) := t.occurrencesIn p s.toList
    ⟨os, q⟩
  | .node _ inner => mapFrom t p inner

/-- The occurrences in several trees in a row. -/
def mapAllFrom (t : Literals) (p : Position) : List Token → Mapped
  | [] => ⟨[], p⟩
  | root :: rest =>
    let first := mapFrom t p root
    let later := mapAllFrom t first.finish rest
    ⟨first.occurrences ++ later.occurrences, later.finish⟩

end

mutual

theorem mapFrom_eq (t : Literals) (p : Position) (root : Token) :
    root.mapFrom t p = t.mapLeaves p root.leaves := by
  fun_cases leaves root with
  | case1 s => simp [mapFrom, Literals.mapLeaves, Literals.mapLeaf]
  | case2 children => rw [mapFrom, mapAllFrom_eq t p children]
  | case3 s => simp [mapFrom, Literals.mapLeaves, Literals.mapLeaf]
  | case4 category inner notText => rw [mapFrom, mapFrom_eq t p inner]; exact notText

theorem mapAllFrom_eq (t : Literals) (p : Position) (roots : List Token) :
    mapAllFrom t p roots = t.mapLeaves p (leavesOf roots) := by
  cases roots with
  | nil => rfl
  | cons root rest =>
    rw [mapAllFrom, mapFrom_eq t p root, mapAllFrom_eq t _ rest, leavesOf,
      Literals.mapLeaves_append]

end

theorem occurrences_eq_mapFrom (root : Token) (t : Literals) :
    root.occurrences t = root.mapFrom t .origin := by
  rw [occurrences_eq_mapLeaves, mapFrom_eq]

end Token

/-! ## Turns -/

namespace Walk

variable {t : Literals} {w : Walk}

/-- The walk after a number of turns, if it takes that many. -/
def after (t : Literals) : Nat → Walk → Option Walk
  | 0, w => some w
  | turns + 1, w => (w.turn? t).bind (after t turns)

theorem turn?_eq_none_iff : w.turn? t = none ↔ w.stack = [] := by
  unfold turn?
  cases w.stack <;> simp

/-- The walk ends after the turns that are left, with the result of the run. -/
theorem after_left (t : Literals) (w : Walk) :
    w.after t w.left = some ⟨(run t w).finish, (run t w).occurrences.reverse, []⟩ := by
  fun_induction run t w with
  | case1 w next turned ih => rw [left_of_turn? turned, after, turned, Option.bind_some, ih]
  | case2 w turned =>
    have stack : w.stack = [] := turn?_eq_none_iff.mp turned
    have nothing : w.left = 0 := by rw [left, stack, Token.turnsOf]
    rw [nothing, after, ← stack, List.reverse_reverse]

end Walk

/-! ## Wrapped subtrees -/

namespace Token

/-- A token in any number of nodes and of lists with one element. -/
inductive Wraps (inner : Token) : Token → Prop
  | bare : Wraps inner inner
  | node {outer : Token} (category : Category) : Wraps inner outer → Wraps inner (.node category outer)
  | list {outer : Token} : Wraps inner outer → Wraps inner (.list [outer])

/-- A tree and the same tree with one of its subtrees, which is not a bare text, wrapped. -/
inductive Rewraps : Token → Token → Prop
  | here {inner outer : Token} : (∀ s, inner ≠ .text s) → Wraps inner outer → Rewraps inner outer
  | node {inner inner' : Token} (category : Category) :
      Rewraps inner inner' → Rewraps (.node category inner) (.node category inner')
  | list {child child' : Token} (before after : List Token) : Rewraps child child' →
      Rewraps (.list (before ++ child :: after)) (.list (before ++ child' :: after))

/-- Only a bare text can be searched for the node around it. -/
theorem leaves_node {inner : Token} (notText : ∀ s, inner ≠ .text s) (category : Category) :
    (Token.node category inner).leaves = inner.leaves := by
  rw [leaves]
  exact fun s _ text => notText s text

theorem Wraps.notText {inner outer : Token} (wraps : Wraps inner outer)
    (notText : ∀ s, inner ≠ .text s) : ∀ s, outer ≠ .text s := by
  cases wraps with
  | bare => exact notText
  | node category wraps => rintro s ⟨⟩
  | list wraps => rintro s ⟨⟩

theorem Wraps.leaves_eq {inner outer : Token} (wraps : Wraps inner outer)
    (notText : ∀ s, inner ≠ .text s) : outer.leaves = inner.leaves := by
  induction wraps with
  | bare => rfl
  | node category wraps ih => rw [leaves_node (wraps.notText notText), ih]
  | list wraps ih => simp [leaves, leavesOf, ih]

theorem Rewraps.notText {root root' : Token} (rewraps : Rewraps root root') :
    (∀ s, root ≠ .text s) ∧ ∀ s, root' ≠ .text s := by
  cases rewraps with
  | here notText wraps => exact ⟨notText, wraps.notText notText⟩
  | node category rewraps => exact ⟨by rintro s ⟨⟩, by rintro s ⟨⟩⟩
  | list before after rewraps => exact ⟨by rintro s ⟨⟩, by rintro s ⟨⟩⟩

theorem Rewraps.leaves_eq {root root' : Token} (rewraps : Rewraps root root') :
    root'.leaves = root.leaves := by
  induction rewraps with
  | here notText wraps => exact wraps.leaves_eq notText
  | node category rewraps ih =>
    rw [leaves_node rewraps.notText.1, leaves_node rewraps.notText.2, ih]
  | list before after rewraps ih => simp [leaves, leavesOf, leavesOf_append, ih]

/-- The walk over a tree ends after the turns that the tree takes, with what the recursion finds; and
a tree in which subtrees other than bare texts are wrapped has the same occurrences. -/
theorem occurrences_recursive (root : Token) (t : Literals) :
    (Walk.start root).after t root.turns =
        some ⟨(root.mapFrom t .origin).finish, (root.mapFrom t .origin).occurrences.reverse, []⟩ ∧
      root.occurrences t = root.mapFrom t .origin ∧
      ∀ root', root.Rewraps root' → root'.occurrences t = root.occurrences t := by
  have whole := root.occurrences_eq_mapFrom t
  refine ⟨?_, whole, ?_⟩
  · have turns : (Walk.start root).left = root.turns := by simp [Walk.left, Walk.start, turnsOf]
    rw [← whole, ← turns]
    exact Walk.after_left t _
  · intro root' rewraps
    rw [occurrences_eq_mapLeaves, occurrences_eq_mapLeaves, rewraps.leaves_eq]

/-- A punctuation node in a punctuation node is wrapped; only the inner one is searched. -/
theorem occurrences_recursive_wrapped :
    let t := Settings.classic.literals
    let brackets : Token := .node .punctuation (.text "(\n]")
    let root : Token := .list [.text "f", .node .punctuation brackets]
    let root' : Token :=
      .list [.text "f", .node .punctuation (.node .comment (.list [brackets]))]
    root.Rewraps root' ∧ root'.occurrences t = root.occurrences t ∧
      (root.occurrences t).occurrences.map (·.literal) = ["(", "]"] := by
  intro t brackets root root'
  have wraps : brackets.Wraps (.node .comment (.list [brackets])) := .node .comment (.list .bare)
  have notText : ∀ s, brackets ≠ .text s := nofun
  have rewraps : root.Rewraps root' :=
    .list [.text "f"] [] (.node .punctuation (.here notText wraps))
  obtain ⟨-, whole, same⟩ := occurrences_recursive root t
  refine ⟨rewraps, same root' rewraps, ?_⟩
  rw [whole]
  decide

end Token

end BracketColoring

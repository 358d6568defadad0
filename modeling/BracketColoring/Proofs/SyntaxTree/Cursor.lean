import BracketColoring.Proofs.SyntaxTree.Frontier

/-!
# Flattening with a cursor

A tree can also be walked with a cursor that stands at one node and moves to its first child, its
next sibling or its parent. At every turn the loop emits the node it stands at, or enters it, and
otherwise goes on behind it; it ends when it has gone back up to the root. `Cursor.run_eq` says that
this loop ends and emits what `walk` emits: it takes no more turns than the tree has nodes.
-/

namespace BracketColoring.SyntaxNode

/-- A node of a tree, the siblings that follow it, and its ancestors, closest first, with the
siblings that follow them. -/
structure Cursor where
  node : SyntaxNode
  siblings : List SyntaxNode
  above : List (SyntaxNode × List SyntaxNode)

namespace Cursor

def atRoot (root : SyntaxNode) : Cursor := ⟨root, [], []⟩

def firstChild? (c : Cursor) : Option Cursor :=
  match c.node.children with
  | [] => none
  | child :: rest => some ⟨child, rest, (c.node, c.siblings) :: c.above⟩

def nextSibling? (c : Cursor) : Option Cursor :=
  match c.siblings with
  | [] => none
  | sibling :: rest => some ⟨sibling, rest, c.above⟩

def parent? (c : Cursor) : Option Cursor :=
  match c.above with
  | [] => none
  | (parent, siblings) :: above => some ⟨parent, siblings, above⟩

theorem length_above_of_parent? {c parent : Cursor} (up : c.parent? = some parent) :
    parent.above.length < c.above.length := by
  unfold parent? at up
  split at up
  · cases up
  · next above =>
    cases up
    simp [above]

/-- Goes to the next sibling of the node or of the closest ancestor that has one. -/
def onward? (c : Cursor) : Option Cursor :=
  match c.nextSibling? with
  | some sibling => some sibling
  | none =>
    match _up : c.parent? with
    | some parent => parent.onward?
    | none => none
termination_by c.above.length
decreasing_by exact length_above_of_parent? _up

/-- One turn of the loop: what has been emitted then, and where the loop stands unless it ends. -/
def turn (k : OpaqueKinds) (text : List Char) (e : Emitted) (c : Cursor) :
    Except TokenizeError (Emitted × Option Cursor) :=
  match k.category? c.node.kind with
  | some category => do
    let e ← emit text e c.node.start c.node.stop (.leaf category)
    return (e, c.onward?)
  | none =>
    if c.node.children.length = 0 then do
      let e ← emit text e c.node.start c.node.stop (leafToken c.node.kind c.node.isNamed)
      return (e, c.onward?)
    else
      match c.firstChild? with
      | some child => return (e, some child)
      | none => return (e, c.onward?)

/-- The loop, if it ends within a number of turns. -/
def run (k : OpaqueKinds) (text : List Char) :
    Nat → Emitted → Cursor → Option (Except TokenizeError Emitted)
  | 0, _, _ => none
  | turns + 1, e, c =>
    match turn k text e c with
    | .error failed => some (.error failed)
    | .ok (e, none) => some (.ok e)
    | .ok (e, some c) => run k text turns e c

/-- The tokens of a document, if the loop over its tree ends within a number of turns. -/
def flatten? (k : OpaqueKinds) (turns : Nat) (root : SyntaxNode) (text : String) :
    Option (Except TokenizeError Token) :=
  (run k text.toList turns ⟨0, []⟩ (atRoot root)).map fun emitted => do
    let e ← emitted
    let gap ← gapTokens text.toList e.upTo text.utf8ByteSize
    return .list (e.tokens.reverse ++ gap)

/-! ## The loop ends -/

@[simp] theorem onward?_sibling (node sibling : SyntaxNode) (siblings : List SyntaxNode)
    (above : List (SyntaxNode × List SyntaxNode)) :
    onward? ⟨node, sibling :: siblings, above⟩ = some ⟨sibling, siblings, above⟩ := by
  simp [onward?, nextSibling?]

@[simp] theorem onward?_parent (node parent : SyntaxNode) (siblings : List SyntaxNode)
    (above : List (SyntaxNode × List SyntaxNode)) :
    onward? ⟨node, [], (parent, siblings) :: above⟩ = onward? ⟨parent, siblings, above⟩ := by
  rw [onward?]
  rfl

@[simp] theorem onward?_root (node : SyntaxNode) : onward? ⟨node, [], []⟩ = none := by
  rw [onward?]
  rfl

/-- The nodes that follow the node and all below it, on the stack of a walk. -/
def behind (c : Cursor) : List (List SyntaxNode) := c.siblings :: c.above.map (·.2)

/-- The node and the nodes that follow it, on the stack of a walk. -/
def stack (c : Cursor) : List (List SyntaxNode) := (c.node :: c.siblings) :: c.above.map (·.2)

/-- How many nodes are still to be visited. -/
def left (c : Cursor) : Nat := (c.stack.flatMap nodesOf).length

/-- What the walk emits from where the loop goes on, or what has been emitted when it ends. -/
def rest (k : OpaqueKinds) (text : List Char) (e : Emitted) :
    Option Cursor → Except TokenizeError Emitted
  | none => .ok e
  | some c => walk k text e c.stack

variable {k : OpaqueKinds} {text : List Char}

/-- Going on passes over lists that have no node left. -/
theorem walk_behind (k : OpaqueKinds) (text : List Char) (e : Emitted) (c : Cursor) :
    walk k text e c.behind = rest k text e c.onward? := by
  obtain ⟨node, siblings, above⟩ := c
  induction above generalizing node siblings with
  | nil => cases siblings <;> simp [behind, rest, walk, stack]
  | cons level above ih =>
    obtain ⟨parent, level⟩ := level
    cases siblings with
    | nil =>
      rw [onward?_parent, ← ih]
      simp [behind, walk]
    | cons sibling siblings => simp [behind, rest, stack]

theorem left_of_onward? {c next : Cursor} (found : c.onward? = some next) :
    next.left = (c.behind.flatMap nodesOf).length := by
  obtain ⟨node, siblings, above⟩ := c
  induction above generalizing node siblings with
  | nil =>
    cases siblings with
    | nil => simp at found
    | cons sibling siblings =>
      simp only [onward?_sibling, Option.some.injEq] at found
      simp [← found, left, stack, behind]
  | cons level above ih =>
    obtain ⟨parent, level⟩ := level
    cases siblings with
    | nil =>
      rw [onward?_parent] at found
      simpa [behind, nodesOf] using ih parent level found
    | cons sibling siblings =>
      simp only [onward?_sibling, Option.some.injEq] at found
      simp [← found, left, stack, behind]

theorem left_eq (c : Cursor) :
    c.left = c.node.nodes.length + (c.behind.flatMap nodesOf).length := by
  simp [left, stack, behind, nodesOf]

theorem nodes_length_pos (node : SyntaxNode) : 0 < node.nodes.length := by
  cases node
  simp [nodes]

/-- Emitting the node and going on behind it. -/
theorem emitted_spec {made : Except TokenizeError Emitted} {c : Cursor} :
    (made.bind fun e => walk k text e c.behind) =
        (made.bind fun e => .ok (e, c.onward?)).bind (fun later => rest k text later.1 later.2) ∧
      ∀ e' next, (made.bind fun e => .ok (e, c.onward?)) = .ok (e', some next) →
        next.left < c.left := by
  cases made with
  | error failed => exact ⟨rfl, by rintro e' next ⟨⟩⟩
  | ok e =>
    refine ⟨walk_behind k text e c, ?_⟩
    intro e' next turned
    have found : c.onward? = some next := (Prod.mk.inj (Except.ok.inj turned)).2
    have := nodes_length_pos c.node
    rw [left_of_onward? found, left_eq]
    omega

/-- A turn of the loop emits what the walk emits next, and fewer nodes are left after it. -/
theorem turn_spec (k : OpaqueKinds) (text : List Char) (e : Emitted) (c : Cursor) :
    walk k text e c.stack = (turn k text e c).bind (fun later => rest k text later.1 later.2) ∧
      ∀ e' next, turn k text e c = .ok (e', some next) → next.left < c.left := by
  obtain ⟨⟨kind, isNamed, start, stop, children⟩, siblings, above⟩ := c
  cases whole : k.category? kind with
  | some category =>
    rw [stack, walk.eq_3, turn, SyntaxNode.kind, whole]
    · exact emitted_spec
    · exact whole
  | none =>
    cases children with
    | nil =>
      rw [stack, walk.eq_4, turn, SyntaxNode.kind, whole]
      · exact emitted_spec
      · exact whole
    | cons child children =>
      have turned : turn k text e ⟨.mk kind isNamed start stop (child :: children), siblings, above⟩ =
          .ok (e, some ⟨child, children,
            (.mk kind isNamed start stop (child :: children), siblings) :: above⟩) := by
        rw [turn, SyntaxNode.kind, whole]
        rfl
      rw [stack, walk.eq_5, turned]
      · refine ⟨rfl, ?_⟩
        rintro e' next ⟨⟩
        simp [left, stack, nodesOf, nodes]
      · exact whole

/-- The loop emits what the walk emits, in no more turns than there are nodes left. -/
theorem run_eq (k : OpaqueKinds) (text : List Char) {turns : Nat} (e : Emitted) (c : Cursor)
    (enough : c.left ≤ turns) : run k text turns e c = some (walk k text e c.stack) := by
  induction turns generalizing e c with
  | zero =>
    have := nodes_length_pos c.node
    rw [left_eq] at enough
    omega
  | succ turns ih =>
    obtain ⟨same, fewer⟩ := turn_spec k text e c
    rw [run, same]
    cases turned : turn k text e c with
    | error failed => rfl
    | ok later =>
      obtain ⟨e', next?⟩ := later
      cases next? with
      | none => rfl
      | some next =>
        have := fewer e' next turned
        exact ih e' next (by omega)

/-- The loop over a tree ends, after at most as many turns as the tree has nodes. -/
theorem flatten?_eq (k : OpaqueKinds) (root : SyntaxNode) (text : String) :
    flatten? k root.nodes.length root text = some (root.flatten k text) := by
  have all : (atRoot root).left = root.nodes.length := by simp [left, stack, atRoot, nodesOf]
  rw [flatten?, run_eq k text.toList ⟨0, []⟩ (atRoot root) (Nat.le_of_eq all)]
  rfl

end Cursor

end BracketColoring.SyntaxNode

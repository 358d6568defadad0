import BracketColoring.SyntaxTree

/-!
# The nodes that are emitted

Flattening emits the nodes that are opaque or have no children, unless they lie inside of an opaque
node: these are the frontier of a tree. `walk_eq` removes the stack of sibling lists from the walk,
so that all that is said about a flattened tree is said by induction on a list of nodes.
-/

namespace BracketColoring.SyntaxNode

def kind : SyntaxNode → String
  | .mk kind _ _ _ _ => kind

def isNamed : SyntaxNode → Bool
  | .mk _ isNamed _ _ _ => isNamed

def start : SyntaxNode → Nat
  | .mk _ _ start _ _ => start

def stop : SyntaxNode → Nat
  | .mk _ _ _ stop _ => stop

def children : SyntaxNode → List SyntaxNode
  | .mk _ _ _ _ children => children

mutual

/-- All nodes of a tree, each before its children. -/
def nodes : SyntaxNode → List SyntaxNode
  | .mk kind isNamed start stop children =>
    .mk kind isNamed start stop children :: nodesOf children

def nodesOf : List SyntaxNode → List SyntaxNode
  | [] => []
  | node :: rest => nodes node ++ nodesOf rest

end

mutual

/-- The nodes of a tree that are emitted, in document order. -/
def frontier (k : OpaqueKinds) : SyntaxNode → List SyntaxNode
  | .mk kind isNamed start stop children =>
    if (k.category? kind).isSome || children.isEmpty then [.mk kind isNamed start stop children]
    else frontierOf k children

/-- The emitted nodes of several trees in a row. -/
def frontierOf (k : OpaqueKinds) : List SyntaxNode → List SyntaxNode
  | [] => []
  | node :: rest => frontier k node ++ frontierOf k rest

end

mutual

theorem mem_nodes_of_mem_frontier {k : OpaqueKinds} {node : SyntaxNode} :
    ∀ {root : SyntaxNode}, node ∈ root.frontier k → node ∈ root.nodes
  | .mk kind isNamed start stop children, emitted => by
    rw [frontier] at emitted
    rw [nodes]
    split at emitted
    · rw [List.mem_singleton.mp emitted]
      exact List.mem_cons_self
    · exact List.mem_cons_of_mem _ (mem_nodesOf_of_mem_frontierOf emitted)

theorem mem_nodesOf_of_mem_frontierOf {k : OpaqueKinds} {node : SyntaxNode} :
    ∀ {roots : List SyntaxNode}, node ∈ frontierOf k roots → node ∈ nodesOf roots
  | [], emitted => by cases emitted
  | root :: rest, emitted => by
    rw [frontierOf] at emitted
    rw [nodesOf]
    rcases List.mem_append.mp emitted with here | later
    · exact List.mem_append_left _ (mem_nodes_of_mem_frontier here)
    · exact List.mem_append_right _ (mem_nodesOf_of_mem_frontierOf later)

end

/-- The token that a node becomes when it is emitted with a text. -/
def token (k : OpaqueKinds) (node : SyntaxNode) : List Char → Token :=
  match k.category? node.kind with
  | some category => .leaf category
  | none => leafToken node.kind node.isNamed

/-- Emits nodes one after the other. -/
def emitAll (k : OpaqueKinds) (text : List Char) (e : Emitted) (nodes : List SyntaxNode) :
    Except TokenizeError Emitted :=
  nodes.foldlM (fun e node => emit text e node.start node.stop (node.token k)) e

/-- A node on top of the stack that is in its own frontier is emitted before its siblings. -/
theorem emitAll_top {k : OpaqueKinds} {node : SyntaxNode} (front : node.frontier k = [node])
    (text : List Char) (e : Emitted) (siblings : List SyntaxNode)
    (stack : List (List SyntaxNode)) :
    emitAll k text e (((node :: siblings) :: stack).flatMap (frontierOf k)) =
      (emit text e node.start node.stop (node.token k)).bind fun e =>
        emitAll k text e ((siblings :: stack).flatMap (frontierOf k)) := by
  rw [List.flatMap_cons, frontierOf, front, List.singleton_append, List.cons_append,
    ← List.flatMap_cons]
  rfl

/-- The walk emits the frontiers of the trees that are still on its stack, in order. -/
theorem walk_eq (k : OpaqueKinds) (text : List Char) (e : Emitted)
    (stack : List (List SyntaxNode)) :
    walk k text e stack = emitAll k text e (stack.flatMap (frontierOf k)) := by
  fun_induction walk k text e stack with
  | case1 e => rfl
  | case2 e stack ih => simpa [frontierOf] using ih
  | case3 e kind isNamed start stop children siblings stack category whole ih =>
    rw [emitAll_top (by simp [frontier, whole]), token, SyntaxNode.kind, whole]
    exact bind_congr ih
  | case4 e kind isNamed start stop siblings stack entered ih =>
    rw [emitAll_top (by simp [frontier]), token, SyntaxNode.kind, entered]
    exact bind_congr ih
  | case5 e kind isNamed start stop siblings stack child children entered ih =>
    have front : frontier k (.mk kind isNamed start stop (child :: children)) =
        frontierOf k (child :: children) := by
      simp [frontier, entered]
    rw [ih, List.flatMap_cons, List.flatMap_cons, List.flatMap_cons, frontierOf.eq_2 k (.mk ..),
      front, List.append_assoc]

end BracketColoring.SyntaxNode

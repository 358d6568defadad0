import BracketColoring.Proofs.SyntaxTree.Lossless
import Mathlib.Data.List.Pairwise

/-!
# The nodes that are shown

In a well-formed tree the children of a node lie inside of it, one after the other; then so do the
nodes of its frontier. Which of them are shown can be read off the tree: a node is shown unless it is
empty, lies below an opaque node or is entered (`shown_eq`).
-/

namespace BracketColoring

namespace SyntaxNode

/-- The node ends before another starts. -/
def Ahead (a b : SyntaxNode) : Prop := a.stop ≤ b.start

instance (a b : SyntaxNode) : Decidable (a.Ahead b) := inferInstanceAs (Decidable (_ ≤ _))

/-- The children of the node lie inside of it, one after the other. -/
structure Orderly (node : SyntaxNode) : Prop where
  inside : ∀ child ∈ node.children, node.start ≤ child.start ∧ child.stop ≤ node.stop
  ordered : node.children.Pairwise Ahead

theorem orderly_iff {node : SyntaxNode} :
    node.Orderly ↔
      (∀ child ∈ node.children, node.start ≤ child.start ∧ child.stop ≤ node.stop) ∧
        node.children.Pairwise Ahead :=
  ⟨fun orderly => ⟨orderly.inside, orderly.ordered⟩, fun ⟨inside, ordered⟩ => ⟨inside, ordered⟩⟩

instance (node : SyntaxNode) : Decidable node.Orderly := decidable_of_iff _ orderly_iff.symm

/-- Every node lies on characters of the text and inside of its parent, behind the siblings before
it. -/
structure WellFormed (text : List Char) (root : SyntaxNode) : Prop where
  onBoundaries : root.OnBoundaries text
  orderly : ∀ node ∈ root.nodes, node.Orderly

/-! ## Which nodes are shown -/

/-- Nodes of this kind are emitted whole. -/
def IsOpaque (k : OpaqueKinds) (node : SyntaxNode) : Prop :=
  node.kind ∈ k.strings ∨ node.kind ∈ k.comments

instance (k : OpaqueKinds) (node : SyntaxNode) : Decidable (node.IsOpaque k) :=
  inferInstanceAs (Decidable (_ ∨ _))

theorem isOpaque_iff {k : OpaqueKinds} {node : SyntaxNode} :
    node.IsOpaque k ↔ (k.category? node.kind).isSome = true := by
  simp only [IsOpaque, OpaqueKinds.category?, List.contains_iff_mem]
  grind

mutual

/-- The nodes of a tree, each before its children, with their ancestors. -/
def lineage (above : List SyntaxNode) : SyntaxNode → List (List SyntaxNode × SyntaxNode)
  | .mk kind isNamed start stop children =>
    (above, .mk kind isNamed start stop children) ::
      lineageOf (.mk kind isNamed start stop children :: above) children

def lineageOf (above : List SyntaxNode) : List SyntaxNode → List (List SyntaxNode × SyntaxNode)
  | [] => []
  | node :: rest => lineage above node ++ lineageOf above rest

end

/-- There is something of the node. -/
def IsFilled (node : SyntaxNode) : Prop := node.start < node.stop

instance (node : SyntaxNode) : Decidable node.IsFilled := inferInstanceAs (Decidable (_ < _))

/-- A node is shown if there is something of it, no ancestor is opaque, and it is opaque itself or
has no children. -/
def IsShown (k : OpaqueKinds) (above : List SyntaxNode) (node : SyntaxNode) : Prop :=
  node.IsFilled ∧ (∀ ancestor ∈ above, ¬ ancestor.IsOpaque k) ∧
    (node.IsOpaque k ∨ node.children = [])

instance (k : OpaqueKinds) (above : List SyntaxNode) (node : SyntaxNode) :
    Decidable (node.IsShown k above) :=
  inferInstanceAs (Decidable (_ ∧ _ ∧ (_ ∨ _ = [])))

def shownIn (k : OpaqueKinds) (entries : List (List SyntaxNode × SyntaxNode)) : List SyntaxNode :=
  (entries.filter fun entry => entry.2.IsShown k entry.1).map (·.2)

/-- The nodes of a tree that are shown, each before those that follow it. -/
def shown (k : OpaqueKinds) (root : SyntaxNode) : List SyntaxNode := shownIn k (root.lineage [])

variable {k : OpaqueKinds}

theorem shownIn_append (xs ys : List (List SyntaxNode × SyntaxNode)) :
    shownIn k (xs ++ ys) = shownIn k xs ++ shownIn k ys := by
  simp [shownIn]

mutual

theorem shownIn_lineage_covered {above : List SyntaxNode}
    (covered : ∃ ancestor ∈ above, ancestor.IsOpaque k) :
    ∀ root : SyntaxNode, shownIn k (root.lineage above) = []
  | .mk kind isNamed start stop children => by
    obtain ⟨ancestor, membership, whole⟩ := covered
    have hidden : ¬ (mk kind isNamed start stop children).IsShown k above :=
      fun shown => shown.2.1 ancestor membership whole
    have below := shownIn_lineageOf_covered
      ⟨ancestor, List.mem_cons_of_mem (mk kind isNamed start stop children) membership, whole⟩
      children
    rw [lineage, ← List.singleton_append, shownIn_append, below]
    simp [shownIn, hidden]

theorem shownIn_lineageOf_covered {above : List SyntaxNode}
    (covered : ∃ ancestor ∈ above, ancestor.IsOpaque k) :
    ∀ roots : List SyntaxNode, shownIn k (lineageOf above roots) = []
  | [] => rfl
  | root :: rest => by
    rw [lineageOf, shownIn_append, shownIn_lineage_covered covered root,
      shownIn_lineageOf_covered covered rest, List.append_nil]

end

/-- A node below no opaque node is shown, or nothing of it, if it is not entered. -/
theorem shownIn_entry {above : List SyntaxNode}
    (visible : ∀ ancestor ∈ above, ¬ ancestor.IsOpaque k) (node : SyntaxNode) :
    shownIn k [(above, node)] =
      if node.IsOpaque k ∨ node.children = [] then [node].filter (·.IsFilled) else [] := by
  have shown : node.IsShown k above ↔ node.IsFilled ∧ (node.IsOpaque k ∨ node.children = []) := by
    rw [IsShown, and_iff_right visible]
  by_cases last : node.IsOpaque k ∨ node.children = []
  · by_cases filled : node.IsFilled <;> simp [shownIn, shown, last, filled]
  · simp [shownIn, shown, last]

theorem frontier_eq_if (k : OpaqueKinds) (node : SyntaxNode) :
    node.frontier k =
      if node.IsOpaque k ∨ node.children = [] then [node] else frontierOf k node.children := by
  obtain ⟨kind, isNamed, start, stop, children⟩ := node
  rw [frontier]
  simp [isOpaque_iff, SyntaxNode.kind, SyntaxNode.children]

mutual

/-- Below no opaque node, the nodes of the frontier are shown unless they are empty. -/
theorem shownIn_lineage {above : List SyntaxNode}
    (visible : ∀ ancestor ∈ above, ¬ ancestor.IsOpaque k) :
    ∀ root : SyntaxNode, shownIn k (root.lineage above) = (root.frontier k).filter (·.IsFilled)
  | .mk kind isNamed start stop children => by
    rw [lineage, ← List.singleton_append, shownIn_append, shownIn_entry visible, frontier_eq_if]
    by_cases whole : (mk kind isNamed start stop children).IsOpaque k
    · rw [shownIn_lineageOf_covered ⟨_, List.mem_cons_self, whole⟩, if_pos (.inl whole),
        if_pos (.inl whole), List.append_nil]
    · have below := shownIn_lineageOf (List.forall_mem_cons.mpr ⟨whole, visible⟩) children
      rw [below]
      cases children with
      | nil => simp [SyntaxNode.children, frontierOf]
      | cons child rest => simp [SyntaxNode.children, whole]

theorem shownIn_lineageOf {above : List SyntaxNode}
    (visible : ∀ ancestor ∈ above, ¬ ancestor.IsOpaque k) :
    ∀ roots : List SyntaxNode,
      shownIn k (lineageOf above roots) = (frontierOf k roots).filter (·.IsFilled)
  | [] => rfl
  | root :: rest => by
    rw [lineageOf, shownIn_append, shownIn_lineage visible root, shownIn_lineageOf visible rest,
      frontierOf, List.filter_append]

end

theorem shown_eq (k : OpaqueKinds) (root : SyntaxNode) :
    root.shown k = (root.frontier k).filter (·.IsFilled) :=
  shownIn_lineage (by simp) root

/-! ## The frontier of a well-formed tree -/

mutual

theorem inside_of_mem_nodes {node : SyntaxNode} :
    ∀ {root : SyntaxNode}, (∀ m ∈ root.nodes, m.Orderly) → node ∈ root.nodes →
      root.start ≤ node.start ∧ node.stop ≤ root.stop
  | .mk kind isNamed start stop children, orderly, below => by
    rw [nodes] at orderly below
    obtain ⟨root, descendants⟩ := List.forall_mem_cons.mp orderly
    rcases List.mem_cons.mp below with rfl | below
    · exact ⟨Nat.le_refl _, Nat.le_refl _⟩
    · obtain ⟨child, membership, from_, upTo⟩ := inside_of_mem_nodesOf descendants below
      obtain ⟨first, last⟩ := root.inside child membership
      exact ⟨Nat.le_trans first from_, Nat.le_trans upTo last⟩

theorem inside_of_mem_nodesOf {node : SyntaxNode} :
    ∀ {roots : List SyntaxNode}, (∀ m ∈ nodesOf roots, m.Orderly) → node ∈ nodesOf roots →
      ∃ root ∈ roots, root.start ≤ node.start ∧ node.stop ≤ root.stop
  | [], _, below => by cases below
  | root :: rest, orderly, below => by
    rw [nodesOf] at orderly below
    obtain ⟨here, later⟩ := List.forall_mem_append.mp orderly
    rcases List.mem_append.mp below with below | below
    · exact ⟨root, List.mem_cons_self, inside_of_mem_nodes here below⟩
    · obtain ⟨other, membership, inside⟩ := inside_of_mem_nodesOf later below
      exact ⟨other, List.mem_cons_of_mem _ membership, inside⟩

end

mutual

/-- The nodes that are emitted follow each other. -/
theorem pairwise_frontier (k : OpaqueKinds) :
    ∀ {root : SyntaxNode}, (∀ m ∈ root.nodes, m.Orderly) → (root.frontier k).Pairwise Ahead
  | .mk kind isNamed start stop children, orderly => by
    rw [nodes] at orderly
    obtain ⟨root, descendants⟩ := List.forall_mem_cons.mp orderly
    rw [frontier]
    split
    · exact List.pairwise_singleton _ _
    · exact pairwise_frontierOf k descendants root.ordered

theorem pairwise_frontierOf (k : OpaqueKinds) :
    ∀ {roots : List SyntaxNode}, (∀ m ∈ nodesOf roots, m.Orderly) → roots.Pairwise Ahead →
      (frontierOf k roots).Pairwise Ahead
  | [], _, _ => .nil
  | root :: rest, orderly, ordered => by
    rw [nodesOf] at orderly
    obtain ⟨here, later⟩ := List.forall_mem_append.mp orderly
    obtain ⟨first, others⟩ := List.pairwise_cons.mp ordered
    rw [frontierOf]
    refine List.pairwise_append.mpr
      ⟨pairwise_frontier k here, pairwise_frontierOf k later others, ?_⟩
    intro a emitted b emitted'
    obtain ⟨other, membership, from_, -⟩ :=
      inside_of_mem_nodesOf later (mem_nodesOf_of_mem_frontierOf emitted')
    calc a.stop
      _ ≤ root.stop := (inside_of_mem_nodes here (mem_nodes_of_mem_frontier emitted)).2
      _ ≤ other.start := first other membership
      _ ≤ b.start := from_

end

mutual

/-- An opaque node lies inside of an opaque node that is emitted. -/
theorem exists_opaque_frontier {node : SyntaxNode} (whole : node.IsOpaque k) :
    ∀ {root : SyntaxNode}, (∀ m ∈ root.nodes, m.Orderly) → node ∈ root.nodes →
      ∃ cover ∈ root.frontier k, cover.IsOpaque k ∧
        cover.start ≤ node.start ∧ node.stop ≤ cover.stop
  | .mk kind isNamed start stop children, orderly, below => by
    rw [frontier_eq_if, SyntaxNode.children]
    by_cases whole' : (mk kind isNamed start stop children).IsOpaque k
    · rw [if_pos (.inl whole')]
      exact ⟨_, List.mem_singleton_self _, whole', inside_of_mem_nodes orderly below⟩
    · rw [nodes] at orderly below
      have lower : node ∈ nodesOf children :=
        (List.mem_cons.mp below).resolve_left fun same => whole' (same ▸ whole)
      obtain ⟨cover, emitted, covers⟩ :=
        exists_opaque_frontierOf whole (List.forall_mem_cons.mp orderly).2 lower
      have entered : children ≠ [] := by
        rintro rfl
        cases lower
      rw [if_neg (not_or.mpr ⟨whole', entered⟩)]
      exact ⟨cover, emitted, covers⟩

theorem exists_opaque_frontierOf {node : SyntaxNode} (whole : node.IsOpaque k) :
    ∀ {roots : List SyntaxNode}, (∀ m ∈ nodesOf roots, m.Orderly) → node ∈ nodesOf roots →
      ∃ cover ∈ frontierOf k roots, cover.IsOpaque k ∧
        cover.start ≤ node.start ∧ node.stop ≤ cover.stop
  | [], _, below => by cases below
  | root :: rest, orderly, below => by
    rw [nodesOf] at orderly below
    obtain ⟨here, later⟩ := List.forall_mem_append.mp orderly
    rw [frontierOf]
    rcases List.mem_append.mp below with below | below
    · obtain ⟨cover, emitted, covers⟩ := exists_opaque_frontier whole here below
      exact ⟨cover, List.mem_append_left _ emitted, covers⟩
    · obtain ⟨cover, emitted, covers⟩ := exists_opaque_frontierOf whole later below
      exact ⟨cover, List.mem_append_right _ emitted, covers⟩

end

/-- In a well-formed tree no shown node that is entered overlaps an opaque node. -/
theorem apart_of_isOpaque {k : OpaqueKinds} {root node whole : SyntaxNode}
    (orderly : ∀ m ∈ root.nodes, m.Orderly) (shown : node ∈ root.shown k)
    (entered : ¬ node.IsOpaque k) (below : whole ∈ root.nodes) (isOpaque : whole.IsOpaque k) :
    node.stop ≤ whole.start ∨ whole.stop ≤ node.start := by
  obtain ⟨cover, emitted, covers, first, last⟩ := exists_opaque_frontier isOpaque orderly below
  rw [shown_eq] at shown
  have different : node ≠ cover := by
    rintro rfl
    exact entered covers
  have symmetric : Std.Symm fun a b : SyntaxNode => a.Ahead b ∨ b.Ahead a := ⟨fun _ _ => Or.symm⟩
  have either : (root.frontier k).Pairwise fun a b => a.Ahead b ∨ b.Ahead a :=
    (pairwise_frontier k orderly).imp Or.inl
  have apart := either.forall (List.mem_filter.mp shown).1 emitted different
  rcases apart with ahead | behind
  · exact .inl (Nat.le_trans ahead first)
  · exact .inr (Nat.le_trans last behind)

end SyntaxNode

end BracketColoring

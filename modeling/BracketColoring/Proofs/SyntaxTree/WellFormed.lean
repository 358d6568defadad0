import BracketColoring.Proofs.Occurrence.Placed
import BracketColoring.Proofs.SyntaxTree.Cursor
import BracketColoring.Proofs.SyntaxTree.Shown

/-!
# Flattening a well-formed tree

In a well-formed tree no node reaches back behind what was emitted before it. So the document is cut
into the nodes that are shown, each as a whole, and what lies between them (`Piece.Render`), and what
is found in its tokens lies beside the nodes that are opaque.
-/

namespace BracketColoring

namespace SyntaxNode

/-- A character of a leaf that is punctuation. -/
def IsSymbol (c : Char) : Prop :=
  Unicode.isAlphanumeric c = false ∧ Unicode.isWhiteSpace c = false ∧ c ≠ '_'

/-- The token that a node with a text becomes. -/
inductive Becomes (k : OpaqueKinds) (node : SyntaxNode) (text : List Char) : Token → Prop
  | string (listed : node.kind ∈ k.strings) : Becomes k node text (.leaf .string text)
  | comment (unlisted : node.kind ∉ k.strings) (listed : node.kind ∈ k.comments) :
      Becomes k node text (.leaf .comment text)
  | named (entered : ¬ node.IsOpaque k) (named : node.isNamed = true) :
      Becomes k node text (.leaf (.other node.kind) text)
  | symbols (entered : ¬ node.IsOpaque k) (anonymous : node.isNamed = false)
      (symbols : ∀ c ∈ text, IsSymbol c) : Becomes k node text (.punctuation text)
  | plain (entered : ¬ node.IsOpaque k) (anonymous : node.isNamed = false) {c : Char}
      (membership : c ∈ text) (other : ¬ IsSymbol c) : Becomes k node text (.plain text)

/-- A piece of a flattened document: the node that it is, unless it lies between nodes, its bytes,
its text and its token. -/
structure Piece where
  node? : Option SyntaxNode
  start : Nat
  stop : Nat
  content : List Char
  token : Token

namespace Piece

/-- The piece has the text of its bytes, and the bytes and the token of its node. -/
structure Fits (k : OpaqueKinds) (text : List Char) (p : Piece) : Prop where
  filled : p.start < p.stop
  cut : slice? text p.start p.stop = some p.content
  between : p.node? = none → p.token = .plain p.content
  node : ∀ node, p.node? = some node →
    node.start = p.start ∧ node.stop = p.stop ∧ node.Becomes k p.content p.token

/-- The pieces follow each other without gaps, from one byte up to another. -/
def Adjoin (upTo : Nat) : List Piece → Nat → Prop
  | [], size => upTo = size
  | p :: rest, size => p.start = upTo ∧ Adjoin p.stop rest size

/-- The pieces are some nodes and what lies between them, from one byte up to another. -/
structure Render (k : OpaqueKinds) (text : List Char) (upTo : Nat) (nodes : List SyntaxNode)
    (stop : Nat) (pieces : List Piece) : Prop where
  fits : ∀ p ∈ pieces, p.Fits k text
  nodes : pieces.filterMap (·.node?) = nodes
  adjoin : Adjoin upTo pieces stop

variable {k : OpaqueKinds} {text : List Char}

theorem Adjoin.append {a b d : Nat} {xs ys : List Piece} (first : Adjoin a xs b)
    (second : Adjoin b ys d) : Adjoin a (xs ++ ys) d := by
  induction xs generalizing a with
  | nil =>
    cases first
    exact second
  | cons p rest ih => exact ⟨first.1, ih first.2⟩

theorem Render.append {a b d : Nat} {nodes nodes' : List SyntaxNode} {xs ys : List Piece}
    (first : Render k text a nodes b xs) (second : Render k text b nodes' d ys) :
    Render k text a (nodes ++ nodes') d (xs ++ ys) where
  fits := List.forall_mem_append.mpr ⟨first.fits, second.fits⟩
  nodes := by rw [List.filterMap_append, first.nodes, second.nodes]
  adjoin := first.adjoin.append second.adjoin

end Piece

theorem isSymbolic_iff {content : List Char} (filled : content ≠ []) :
    isSymbolic content = true ↔ ∀ c ∈ content, IsSymbol c := by
  simp [isSymbolic, IsSymbol, filled, and_assoc]

theorem becomes_token (k : OpaqueKinds) (node : SyntaxNode) {content : List Char}
    (filled : content ≠ []) : node.Becomes k content (node.token k content) := by
  rw [token]
  cases category : k.category? node.kind with
  | some whole =>
    unfold OpaqueKinds.category? at category
    simp only [List.contains_iff_mem] at category
    split at category
    · next listed =>
      cases category
      exact .string listed
    · next unlisted =>
      split at category
      · next listed =>
        cases category
        exact .comment unlisted listed
      · cases category
  | none =>
    have entered : ¬ node.IsOpaque k := by simp [isOpaque_iff, category]
    dsimp only
    unfold leafToken
    split
    · next named => exact .named entered named
    · next anonymous =>
      rw [Bool.not_eq_true] at anonymous
      split
      · next symbolic => exact .symbols entered anonymous ((isSymbolic_iff filled).mp symbolic)
      · next mixed =>
        rw [isSymbolic_iff filled] at mixed
        push Not at mixed
        obtain ⟨c, membership, other⟩ := mixed
        exact .plain entered anonymous membership other

section

variable {k : OpaqueKinds} {text : List Char} {start stop upTo : Nat}

theorem exists_gapPieces (k : OpaqueKinds) (first : IsBoundary text start)
    (last : IsBoundary text stop) (ordered : start ≤ stop) :
    ∃ pieces, (Cut.gap start stop).mapM (Cut.make text) = .ok (pieces.map (·.token)) ∧
      Piece.Render k text start [] stop pieces := by
  unfold Cut.gap
  split
  · next filled =>
    obtain ⟨content, cut⟩ := exists_slice?_iff.mpr ⟨ordered, first, last⟩
    refine ⟨[⟨none, start, stop, content, .plain content⟩], ?_, ?_, rfl, rfl, rfl⟩
    · rw [List.mapM_cons, List.mapM_nil, Cut.make_eq, cut]
      rfl
    · exact List.forall_mem_singleton.mpr ⟨filled, cut, fun _ => rfl, by rintro node ⟨⟩⟩
  · next behind =>
    exact ⟨[], rfl, by simp, rfl, Nat.le_antisymm ordered (Nat.le_of_not_lt behind)⟩

/-- The piece of a node. -/
theorem exists_nodePiece (k : OpaqueKinds) {node : SyntaxNode} (first : IsBoundary text node.start)
    (last : IsBoundary text node.stop) (filled : node.IsFilled) :
    ∃ piece, Cut.make text ⟨node.start, node.stop, node.token k⟩ = .ok piece.token ∧
      Piece.Render k text node.start [node] node.stop [piece] := by
  obtain ⟨content, cut⟩ := exists_slice?_iff.mpr ⟨Nat.le_of_lt filled, first, last⟩
  have something : content ≠ [] := by
    rintro rfl
    obtain ⟨before, after, -, -, size⟩ := slice?_eq_some_iff.mp cut
    exact Nat.ne_of_lt filled size
  refine ⟨⟨some node, node.start, node.stop, content, node.token k content⟩, ?_, ?_, rfl, rfl, rfl⟩
  · rw [Cut.make_eq, cut]
  · refine List.forall_mem_singleton.mpr ⟨filled, cut, by rintro ⟨⟩, ?_⟩
    rintro node ⟨⟩
    exact ⟨rfl, rfl, becomes_token k node something⟩

/-- A node behind what is cut already is cut as a whole. -/
theorem cutsFrom_of_filled (k : OpaqueKinds) (size : Nat) {node : SyntaxNode}
    (rest : List SyntaxNode) (behind : upTo ≤ node.start) (filled : node.IsFilled) :
    cutsFrom k size upTo (node :: rest) =
      Cut.gap upTo node.start ++ [⟨node.start, node.stop, node.token k⟩] ++
        cutsFrom k size node.stop rest := by
  rw [cutsFrom, cutsOf, reach, Nat.max_eq_left behind]
  simp only [if_pos (show node.start < node.stop from filled)]

theorem cutsFrom_of_empty (k : OpaqueKinds) (size : Nat) {node : SyntaxNode}
    (rest : List SyntaxNode) (empty : ¬ node.IsFilled) :
    cutsFrom k size upTo (node :: rest) = cutsFrom k size upTo rest := by
  have nothing : ¬ max node.start upTo < node.stop :=
    fun inside => empty (Nat.lt_of_le_of_lt (Nat.le_max_left _ _) inside)
  rw [cutsFrom, cutsOf, reach]
  simp only [if_neg nothing, List.nil_append]

/-- The pieces of some nodes that follow each other. -/
theorem exists_pieces (k : OpaqueKinds) {nodes : List SyntaxNode} (ordered : nodes.Pairwise Ahead)
    (behind : ∀ node ∈ nodes, upTo ≤ node.start)
    (each : ∀ node ∈ nodes, IsBoundary text node.start ∧ IsBoundary text node.stop)
    (first : IsBoundary text upTo) :
    ∃ pieces, (cutsFrom k (byteCount text) upTo nodes).mapM (Cut.make text) =
        .ok (pieces.map (·.token)) ∧
      Piece.Render k text upTo (nodes.filter (·.IsFilled)) (byteCount text) pieces := by
  induction nodes generalizing upTo with
  | nil =>
    obtain ⟨before, after, rfl, rfl⟩ := first
    have inside : byteCount before ≤ byteCount (before ++ after) := by
      rw [byteCount_append]
      omega
    exact exists_gapPieces k ⟨before, after, rfl, rfl⟩ (isBoundary_byteCount _) inside
  | cons node rest ih =>
    obtain ⟨ahead, ordered⟩ := List.pairwise_cons.mp ordered
    obtain ⟨from_, behind⟩ := List.forall_mem_cons.mp behind
    obtain ⟨⟨start, stop⟩, each⟩ := List.forall_mem_cons.mp each
    by_cases filled : node.IsFilled
    · obtain ⟨gap, gapMade, gapRender⟩ := exists_gapPieces k first start from_
      obtain ⟨piece, pieceMade, pieceRender⟩ := exists_nodePiece k start stop filled
      obtain ⟨later, laterMade, laterRender⟩ := ih ordered ahead each stop
      refine ⟨gap ++ [piece] ++ later, ?_, ?_⟩
      · rw [cutsFrom_of_filled k _ rest from_ filled, List.mapM_append, List.mapM_append, gapMade,
          List.mapM_cons, List.mapM_nil, pieceMade, laterMade]
        simp [bind, Except.bind, pure, Except.pure]
      · rw [List.filter_cons_of_pos (by simpa using filled)]
        exact (gapRender.append pieceRender).append laterRender
    · rw [cutsFrom_of_empty k _ rest filled, List.filter_cons_of_neg (by simpa using filled)]
      exact ih ordered behind each first

end

/-! ## Occurrences and opaque nodes -/

/-- The range of positions from the node's first byte to its last. -/
def ExtendsOver (text : List Char) (node : SyntaxNode) (r : Range) : Prop :=
  (∃ before after, text = before ++ after ∧ byteCount before = node.start ∧
    r.start = Position.origin.advance before) ∧
  ∃ before after, text = before ++ after ∧ byteCount before = node.stop ∧
    r.stop = Position.origin.advance before

section

variable {k : OpaqueKinds} {text : List Char} {t : Literals} {o : Occurrence}

theorem exists_extendsOver {node : SyntaxNode} (first : IsBoundary text node.start)
    (last : IsBoundary text node.stop) : ∃ r, node.ExtendsOver text r := by
  obtain ⟨before, after, split, size⟩ := first
  obtain ⟨before', after', split', size'⟩ := last
  exact ⟨⟨Position.origin.advance before, Position.origin.advance before'⟩,
    ⟨before, after, split, size, rfl⟩, before', after', split', size', rfl⟩

/-- Literals are looked for in a node only if it is not opaque. -/
theorem Becomes.leaves {node : SyntaxNode} {content : List Char} {token : Token}
    (becomes : node.Becomes k content token) :
    ∃ searched, token.leaves = [⟨searched, content⟩] ∧ (searched = true → ¬ node.IsOpaque k) := by
  cases becomes with
  | string => exact ⟨false, by simp [Token.leaf, Token.leaves], by simp⟩
  | comment => exact ⟨false, by simp [Token.leaf, Token.leaves], by simp⟩
  | named entered => exact ⟨false, by simp [Token.leaf, Token.leaves], by simp⟩
  | symbols entered => exact ⟨true, by simp [Token.punctuation, Token.leaves], fun _ => entered⟩
  | plain entered => exact ⟨false, by simp [Token.plain, Token.leaves], by simp⟩

theorem Piece.Fits.leaves {p : Piece} (fits : p.Fits k text) :
    ∃ searched, p.token.leaves = [⟨searched, p.content⟩] ∧
      (searched = true → ∃ node, p.node? = some node ∧ ¬ node.IsOpaque k) := by
  cases node? : p.node? with
  | none =>
    rw [fits.between node?]
    exact ⟨false, by simp [Token.plain, Token.leaves], by simp⟩
  | some node =>
    obtain ⟨-, -, becomes⟩ := fits.node node node?
    obtain ⟨searched, leaves, entered⟩ := becomes.leaves
    exact ⟨searched, leaves, fun looked => ⟨node, rfl, entered looked⟩⟩

/-- An occurrence in a flattened document lies in a node that is not opaque. -/
theorem exists_node_of_mem (nonEmpty : t.NonEmpty) {pieces : List Piece} {upTo size : Nat}
    (fits : ∀ p ∈ pieces, p.Fits k text) (adjoin : Piece.Adjoin upTo pieces size)
    {before rest : List Char} (split : text = before ++ rest) (start : byteCount before = upTo)
    (membership : o ∈ (t.mapLeaves (Position.origin.advance before)
      (Token.leavesOf (pieces.map (·.token)))).occurrences) :
    ∃ node ∈ pieces.filterMap (·.node?), ¬ node.IsOpaque k ∧
      ∃ r, node.ExtendsOver text r ∧ r.start ≤ o.range.start ∧ o.range.stop ≤ r.stop := by
  induction pieces generalizing upTo before rest with
  | nil => cases membership
  | cons p pieces ih =>
    obtain ⟨fit, fits⟩ := List.forall_mem_cons.mp fits
    obtain ⟨from_, adjoin⟩ := adjoin
    obtain ⟨before', after, split', start', stop⟩ := slice?_eq_some_iff.mp fit.cut
    -- Both splits have as many bytes before them.
    obtain ⟨rfl, rest'⟩ := eq_of_byteCount_eq (split.symm.trans (split'.trans (List.append_assoc ..)))
      (start.trans (from_.symm.trans start'.symm))
    obtain ⟨searched, leaves, entered⟩ := fit.leaves
    obtain ⟨placed, reached⟩ :=
      Literals.placed_mapLeaf nonEmpty (Position.origin.advance before) ⟨searched, p.content⟩
    rw [List.map_cons, Token.leavesOf, leaves, List.singleton_append,
      Literals.mapLeaves] at membership
    rcases List.mem_append.mp membership with here | later
    · have looked : searched = true := by
        by_contra passed
        simp [Literals.mapLeaf, passed] at here
      obtain ⟨node, node?, open_⟩ := entered looked
      obtain ⟨first, last, -⟩ := fit.node node node?
      have lies := placed.lies o here
      refine ⟨node, List.mem_filterMap.mpr ⟨p, List.mem_cons_self, node?⟩, open_,
        ⟨_, (Position.origin.advance before).advance p.content⟩, ⟨⟨before, rest, split, ?_, rfl⟩,
          before ++ p.content, after, split', ?_, ?_⟩, lies.le_start, lies.stop_le⟩
      · rw [first, start']
      · rw [byteCount_append, start', stop, last]
      · rw [Position.advance_append]
    · rw [reached, ← Position.advance_append] at later
      obtain ⟨node, membership, inside⟩ := ih fits adjoin split'
        (by rw [byteCount_append, start', stop]) later
      refine ⟨node, ?_, inside⟩
      rw [List.filterMap_cons]
      split
      · exact membership
      · exact List.mem_cons_of_mem _ membership

/-- Of two nodes that follow each other, the positions do too. -/
theorem ExtendsOver.le {a b : SyntaxNode} {r s : Range} (first : a.ExtendsOver text r)
    (second : b.ExtendsOver text s) (ahead : a.stop ≤ b.start) : r.stop ≤ s.start := by
  obtain ⟨-, before, after, split, size, stop⟩ := first
  obtain ⟨⟨before', after', split', size', start⟩, -⟩ := second
  rw [stop, start]
  obtain ⟨between, rfl, -⟩ := exists_between (split.symm.trans split') (by omega)
  rw [Position.advance_append]
  exact Position.le_advance _ between

end

/-- The loop over a well-formed tree ends after at most as many turns as the tree has nodes, with a
list of tokens: those of the nodes that are shown, each with the text of its bytes, and texts for the
bytes between them. No literal that is found in them overlaps an opaque node. -/
theorem flatten_wellFormed (k : OpaqueKinds) {root : SyntaxNode} {text : String}
    (wellFormed : root.WellFormed text.toList) :
    Cursor.flatten? k root.nodes.length root text = some (root.flatten k text) ∧
    ∃ pieces : List Piece, root.flatten k text = .ok (.list (pieces.map (·.token))) ∧
      Piece.Render k text.toList 0 (root.shown k) text.utf8ByteSize pieces ∧
      ∀ t : Literals, t.NonEmpty →
        ∀ o ∈ ((Token.list (pieces.map (·.token))).occurrences t).occurrences,
        ∀ whole ∈ root.nodes, whole.IsOpaque k →
          ∃ r, whole.ExtendsOver text.toList r ∧
            (o.range.stop ≤ r.start ∨ r.stop ≤ o.range.start) := by
  obtain ⟨onBoundaries, orderly⟩ := wellFormed
  obtain ⟨pieces, made, render⟩ := exists_pieces k (pairwise_frontier k orderly)
    (fun _ _ => Nat.zero_le _)
    (fun node emitted => onBoundaries node (mem_nodes_of_mem_frontier emitted))
    (isBoundary_zero text.toList)
  rw [byteCount_toList] at made render
  rw [← shown_eq] at render
  have flattened : root.flatten k text = .ok (.list (pieces.map (·.token))) := by
    rw [flatten_eq, cuts, made]
    rfl
  refine ⟨Cursor.flatten?_eq k root text, pieces, flattened, render, ?_⟩
  intro t nonEmpty o membership whole below isOpaque
  rw [Token.occurrences_eq_mapLeaves, Token.leaves, ← Position.advance_nil .origin] at membership
  obtain ⟨node, listed, entered, r, extends_, first, last⟩ :=
    exists_node_of_mem nonEmpty render.fits render.adjoin rfl rfl membership
  rw [render.nodes] at listed
  obtain ⟨start, stop⟩ := onBoundaries whole below
  obtain ⟨s, covers⟩ := exists_extendsOver start stop
  refine ⟨s, covers, ?_⟩
  rcases apart_of_isOpaque orderly listed entered below isOpaque with ahead | behind
  · exact .inl (le_trans last (extends_.le covers ahead))
  · exact .inr (le_trans (covers.le extends_ behind) first)

/-- A call with a string in it: the space and the quotes are no tokens of their own, and neither is the
bracket that the parser added. -/
theorem flatten_wellFormed_call :
    let quotes : List SyntaxNode := [.mk "\"" false 3 4 [], .mk "\"" false 7 8 []]
    let name : SyntaxNode := .mk "identifier" true 0 1 []
    let opening : SyntaxNode := .mk "(" false 1 2 []
    let string : SyntaxNode := .mk "string_literal" true 3 8 quotes
    let closing : SyntaxNode := .mk ")" false 8 9 []
    let call : SyntaxNode := .mk "call" true 0 9
      [name, .mk "arguments" true 1 9 [opening, string, .mk "]" false 8 8 [], closing]]
    call.WellFormed "f( \"é)\")".toList ∧
      ∃ pieces : List Piece,
        call.flatten ⟨["string_literal"], []⟩ "f( \"é)\")" = .ok (.list (pieces.map (·.token))) ∧
        pieces.filterMap (·.node?) = [name, opening, string, closing] := by
  intro quotes name opening string closing call
  have wellFormed : call.WellFormed "f( \"é)\")".toList :=
    ⟨by decide, by decide⟩
  obtain ⟨-, pieces, flattened, render, -⟩ := flatten_wellFormed ⟨["string_literal"], []⟩ wellFormed
  exact ⟨wellFormed, pieces, flattened, render.nodes.trans rfl⟩

end SyntaxNode

end BracketColoring

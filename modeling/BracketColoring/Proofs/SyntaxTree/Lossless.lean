import BracketColoring.Proofs.Occurrence.Leaves
import BracketColoring.Proofs.Result.Steps
import BracketColoring.Proofs.SyntaxTree.Frontier
import BracketColoring.Proofs.Text.Bytes

/-!
# Flattening loses nothing

A syntax tree is flattened by cutting its document into stretches that adjoin each other: the nodes
of the frontier, each as far as it lies behind the nodes before it, and the gaps between them
(`cuts`). Where to cut is decided by the tree alone, whatever bytes its nodes have (`flatten_eq`). So
the tokens, when there are any, are the document again, and there are none exactly when a stretch
does not start and end between characters.
-/

namespace BracketColoring

/-- A stretch of bytes of a document, and the token that it becomes. -/
structure Cut where
  start : Nat
  stop : Nat
  token : List Char → Token

namespace Cut

/-- The cut between two nodes, if there is anything between them. -/
def gap (start stop : Nat) : List Cut := if start < stop then [⟨start, stop, .plain⟩] else []

def make (text : List Char) (c : Cut) : Except TokenizeError Token :=
  (SyntaxNode.slice text c.start c.stop).map c.token

/-- The cut does not go through a character, and it is inside of the text. -/
def Clean (text : List Char) (c : Cut) : Prop := IsBoundary text c.start ∧ IsBoundary text c.stop

instance (text : List Char) (c : Cut) : Decidable (c.Clean text) :=
  inferInstanceAs (Decidable (_ ∧ _))

/-- Why a cut cannot be made. -/
def error (c : Cut) : TokenizeError :=
  .failed ("node range " ++ toString c.start ++ ".." ++ toString c.stop
    ++ " does not fall on character boundaries")

/-- The cuts adjoin each other, from one byte up to another. None is empty, and the token of a cut has
the text that is cut out. -/
inductive Adjoin : Nat → List Cut → Nat → Prop
  | none (byte : Nat) : Adjoin byte [] byte
  | cut {c : Cut} {rest : List Cut} {byte : Nat} (ordered : c.start < c.stop)
      (keeps : ∀ text, (c.token text).leafText = text) (later : Adjoin c.stop rest byte) :
      Adjoin c.start (c :: rest) byte

end Cut

namespace SyntaxNode

/-- The cuts for a node behind a byte: the gap before it, and what is left of the node. -/
def cutsOf (k : OpaqueKinds) (upTo : Nat) (node : SyntaxNode) : List Cut :=
  let start := max node.start upTo
  if start < node.stop then Cut.gap upTo start ++ [⟨start, node.stop, node.token k⟩] else []

/-- The byte up to which a document is cut when a node has been emitted. -/
def reach (upTo : Nat) (node : SyntaxNode) : Nat :=
  if max node.start upTo < node.stop then node.stop else upTo

/-- The cuts for some nodes behind a byte, and for the rest of a document of a given size. -/
def cutsFrom (k : OpaqueKinds) (size upTo : Nat) : List SyntaxNode → List Cut
  | [] => Cut.gap upTo size
  | node :: rest => cutsOf k upTo node ++ cutsFrom k size (reach upTo node) rest

/-- The cuts that are made to flatten a tree. -/
def cuts (k : OpaqueKinds) (root : SyntaxNode) (size : Nat) : List Cut :=
  cutsFrom k size 0 (root.frontier k)

/-! ## Flattening is cutting -/

variable {k : OpaqueKinds} {text : List Char} {size upTo : Nat}

theorem gapTokens_eq (text : List Char) (start stop : Nat) :
    gapTokens text start stop = (Cut.gap start stop).mapM (Cut.make text) := by
  unfold gapTokens Cut.gap
  split
  · rw [List.mapM_cons, List.mapM_nil, Cut.make]
    cases slice text start stop <;> rfl
  · rfl

theorem emit_eq (k : OpaqueKinds) (text : List Char) (e : Emitted) (node : SyntaxNode) :
    emit text e node.start node.stop (node.token k) =
      ((cutsOf k e.upTo node).mapM (Cut.make text)).map fun tokens =>
        ⟨reach e.upTo node, tokens.reverse ++ e.tokens⟩ := by
  unfold emit cutsOf reach
  dsimp only
  split
  · rw [gapTokens_eq, List.mapM_append, List.mapM_cons, List.mapM_nil, Cut.make]
    cases (Cut.gap e.upTo (max node.start e.upTo)).mapM (Cut.make text) with
    | error => rfl
    | ok gap =>
      cases slice text (max node.start e.upTo) node.stop with
      | error => rfl
      | ok piece => simp [Except.map, pure, Except.pure, bind, Except.bind]
  · rfl

/-- What is emitted for some nodes, and the rest of the document behind them, are its cuts. -/
theorem emitAll_eq (k : OpaqueKinds) (text : List Char) (size : Nat) (e : Emitted)
    (nodes : List SyntaxNode) :
    ((emitAll k text e nodes).bind fun e =>
        (gapTokens text e.upTo size).map (e.tokens.reverse ++ ·)) =
      ((cutsFrom k size e.upTo nodes).mapM (Cut.make text)).map (e.tokens.reverse ++ ·) := by
  induction nodes generalizing e with
  | nil =>
    rw [cutsFrom, ← gapTokens_eq]
    rfl
  | cons node rest ih =>
    have step : emitAll k text e (node :: rest) =
        (emit text e node.start node.stop (node.token k)).bind fun e => emitAll k text e rest := rfl
    rw [step, emit_eq, cutsFrom, List.mapM_append]
    cases (cutsOf k e.upTo node).mapM (Cut.make text) with
    | error => rfl
    | ok tokens =>
      refine (ih ⟨reach e.upTo node, tokens.reverse ++ e.tokens⟩).trans ?_
      dsimp only
      cases (cutsFrom k size (reach e.upTo node) rest).mapM (Cut.make text) with
      | error => rfl
      | ok later => simp [Except.map, pure, Except.pure, bind, Except.bind]

/-- Flattening a tree is cutting its document. -/
theorem flatten_eq (k : OpaqueKinds) (root : SyntaxNode) (text : String) :
    root.flatten k text =
      ((root.cuts k text.utf8ByteSize).mapM (Cut.make text.toList)).map .list := by
  have emitted := emitAll_eq k text.toList text.utf8ByteSize ⟨0, []⟩ (root.frontier k)
  have same : ∀ tokens : Except TokenizeError (List Token), tokens.map (fun ts => ts) = tokens :=
    congrFun Except.map_id
  simp only [List.reverse_nil, List.nil_append, same] at emitted
  rw [flatten, walk_eq, List.flatMap_singleton, frontierOf, frontierOf, List.append_nil, cuts,
    ← emitted]
  cases emitAll k text.toList ⟨0, []⟩ (root.frontier k) with
  | error => rfl
  | ok e =>
    dsimp only [bind, Except.bind]
    cases gapTokens text.toList e.upTo text.utf8ByteSize <;> rfl

end SyntaxNode

/-! ## Cuts that can be made -/

namespace Cut

variable {text : List Char} {c : Cut} {token : Token} {error : TokenizeError}

theorem make_eq (text : List Char) (c : Cut) :
    c.make text =
      match slice? text c.start c.stop with
      | some piece => .ok (c.token piece)
      | none => .error c.error := by
  have sliced : SyntaxNode.slice text c.start c.stop =
      match slice? text c.start c.stop with
      | some piece => .ok piece
      | none => .error c.error := rfl
  rw [make, sliced]
  cases slice? text c.start c.stop <;> rfl

theorem exists_of_make (made : c.make text = .ok token) :
    ∃ before piece after, text = before ++ piece ++ after ∧ byteCount before = c.start ∧
      c.start + byteCount piece = c.stop ∧ token = c.token piece := by
  rw [make_eq] at made
  split at made
  · rename_i piece cut
    rcases slice?_eq_some_iff.mp cut with ⟨before, after, whole, start, stop⟩
    exact ⟨before, piece, after, whole, start, stop, (Except.ok.inj made).symm⟩
  · cases made

theorem clean_iff_slice? (ordered : c.start < c.stop) :
    c.Clean text ↔ ∃ piece, slice? text c.start c.stop = some piece := by
  rw [exists_slice?_iff, Clean]
  exact (and_iff_right (Nat.le_of_lt ordered)).symm

theorem exists_make_iff (ordered : c.start < c.stop) :
    (∃ token, c.make text = .ok token) ↔ c.Clean text := by
  rw [clean_iff_slice? ordered, make_eq]
  cases slice? text c.start c.stop <;> simp

theorem make_eq_error_iff (ordered : c.start < c.stop) :
    c.make text = .error error ↔ ¬ c.Clean text ∧ error = c.error := by
  rw [clean_iff_slice? ordered, make_eq]
  cases slice? text c.start c.stop <;> simp [eq_comm]

/-! ## Cuts that adjoin each other -/

namespace Adjoin

variable {a b d : Nat} {xs ys : List Cut}

theorem append (first : Adjoin a xs b) (second : Adjoin b ys d) : Adjoin a (xs ++ ys) d := by
  induction first with
  | none => exact second
  | cut ordered keeps _ ih => exact .cut ordered keeps (ih second)

theorem ordered (adjoin : Adjoin a xs b) : ∀ c ∈ xs, c.start < c.stop := by
  induction adjoin with
  | none => simp
  | cut ordered _ _ ih => exact List.forall_mem_cons.mpr ⟨ordered, ih⟩

theorem gap {start stop : Nat} (ordered : start ≤ stop) : Adjoin start (Cut.gap start stop) stop := by
  unfold Cut.gap
  split
  · next before => exact .cut (c := ⟨start, stop, .plain⟩) before Token.leafText_plain (.none stop)
  · next behind =>
    rw [Nat.le_antisymm ordered (Nat.le_of_not_lt behind)]
    exact .none stop

/-- The tokens of cuts that adjoin each other are the text from the first byte on. -/
theorem leafText_of_made (adjoin : Adjoin a xs b) {before rest : List Char}
    (start : byteCount before = a) {tokens : List Token}
    (made : xs.mapM (make (before ++ rest)) = .ok tokens) :
    ∃ after, rest = tokens.flatMap Token.leafText ++ after ∧
      a + byteCount (tokens.flatMap Token.leafText) = b := by
  induction adjoin generalizing before rest tokens with
  | none byte =>
    cases made
    exact ⟨rest, rfl, rfl⟩
  | @cut c cuts byte ordered keeps _ ih =>
    rw [List.mapM_cons] at made
    cases first : c.make (before ++ rest) with
    | error =>
      rw [first] at made
      cases made
    | ok token =>
      cases others : cuts.mapM (make (before ++ rest)) with
      | error =>
        rw [first, others] at made
        cases made
      | ok later =>
        rw [first, others] at made
        cases made
        rcases exists_of_make first with ⟨before', piece, after, whole, start', stop, rfl⟩
        rw [List.append_assoc] at whole
        rcases eq_of_byteCount_eq whole (start.trans start'.symm) with ⟨rfl, rfl⟩
        rw [← List.append_assoc] at others
        rcases ih (by rw [byteCount_append, start, stop]) others with ⟨behind, rfl, reached⟩
        refine ⟨behind, ?_, ?_⟩
        · simp [keeps]
        · rw [List.flatMap_cons, keeps, byteCount_append]
          omega

end Adjoin

end Cut

namespace SyntaxNode

variable {k : OpaqueKinds} {text : List Char} {size upTo : Nat}

theorem leafText_token (k : OpaqueKinds) (node : SyntaxNode) (text : List Char) :
    (node.token k text).leafText = text := by
  unfold token
  cases k.category? node.kind with
  | some category => exact Token.leafText_leaf category text
  | none =>
    dsimp only
    unfold leafToken
    split
    · exact Token.leafText_leaf _ text
    · split
      · exact Token.leafText_punctuation text
      · exact Token.leafText_plain text

theorem adjoin_cutsOf (k : OpaqueKinds) (upTo : Nat) (node : SyntaxNode) :
    Cut.Adjoin upTo (cutsOf k upTo node) (reach upTo node) := by
  unfold cutsOf reach
  dsimp only
  split
  · next inside =>
    have last : Cut.Adjoin (max node.start upTo)
        [⟨max node.start upTo, node.stop, node.token k⟩] node.stop :=
      .cut (c := ⟨max node.start upTo, node.stop, node.token k⟩) inside (leafText_token k node)
        (.none node.stop)
    exact (Cut.Adjoin.gap (Nat.le_max_right _ _)).append last
  · exact .none upTo

/-- The cuts of a document start where they are asked for, and they do not stop before its end. -/
theorem adjoin_cutsFrom (k : OpaqueKinds) (size upTo : Nat) (nodes : List SyntaxNode) :
    ∃ last, size ≤ last ∧ Cut.Adjoin upTo (cutsFrom k size upTo nodes) last := by
  induction nodes generalizing upTo with
  | nil =>
    rw [cutsFrom]
    rcases Nat.le_total upTo size with inside | behind
    · exact ⟨size, Nat.le_refl size, .gap inside⟩
    · rw [Cut.gap, if_neg (Nat.not_lt.mpr behind)]
      exact ⟨upTo, behind, .none upTo⟩
  | cons node rest ih =>
    rcases ih (reach upTo node) with ⟨last, whole, later⟩
    exact ⟨last, whole, (adjoin_cutsOf k upTo node).append later⟩

theorem clean_of_mem_gap {start stop : Nat} (first : IsBoundary text start)
    (last : IsBoundary text stop) : ∀ c ∈ Cut.gap start stop, c.Clean text := by
  unfold Cut.gap
  split
  · exact List.forall_mem_singleton.mpr ⟨first, last⟩
  · simp

theorem clean_of_mem_cutsFrom (k : OpaqueKinds) {nodes : List SyntaxNode}
    (first : IsBoundary text upTo) (last : IsBoundary text size)
    (each : ∀ node ∈ nodes, IsBoundary text node.start ∧ IsBoundary text node.stop) :
    ∀ c ∈ cutsFrom k size upTo nodes, c.Clean text := by
  induction nodes generalizing upTo with
  | nil => exact clean_of_mem_gap first last
  | cons node rest ih =>
    rcases List.forall_mem_cons.mp each with ⟨⟨start, stop⟩, others⟩
    by_cases inside : max node.start upTo < node.stop
    · have from_ : IsBoundary text (max node.start upTo) := by
        rcases Nat.le_total node.start upTo with behind | before
        · rw [Nat.max_eq_right behind]
          exact first
        · rw [Nat.max_eq_left before]
          exact start
      intro c membership
      rw [cutsFrom, cutsOf, reach, if_pos inside, if_pos inside, List.append_assoc,
        List.mem_append, List.singleton_append, List.mem_cons] at membership
      rcases membership with inGap | rfl | later
      · exact clean_of_mem_gap first from_ c inGap
      · exact ⟨from_, stop⟩
      · exact ih stop others c later
    · rw [cutsFrom, cutsOf, reach, if_neg inside, if_neg inside, List.nil_append]
      exact ih first others

/-- No node of the tree starts or stops inside of a character or behind the end of the text. -/
def OnBoundaries (text : List Char) (root : SyntaxNode) : Prop :=
  ∀ node ∈ root.nodes, IsBoundary text node.start ∧ IsBoundary text node.stop

instance (text : List Char) (root : SyntaxNode) : Decidable (root.OnBoundaries text) :=
  inferInstanceAs (Decidable (∀ node ∈ root.nodes, _))

/-- Whatever the bytes of the nodes are: the tokens of a flattened tree are its document again, a
tree is not flattened exactly because of its first cut that does not lie on boundaries, and it is
flattened when all its nodes lie on boundaries. -/
theorem flatten_lossless (k : OpaqueKinds) (root : SyntaxNode) (text : String) :
    (∀ token, root.flatten k text = .ok token →
      ∃ children, token = .list children ∧ children.flatMap Token.leafText = text.toList) ∧
    (∀ error, root.flatten k text = .error error ↔
      ∃ earlier cut later, root.cuts k text.utf8ByteSize = earlier ++ cut :: later ∧
        (∀ c ∈ earlier, c.Clean text.toList) ∧ ¬ cut.Clean text.toList ∧ error = cut.error) ∧
    (root.OnBoundaries text.toList → ∃ token, root.flatten k text = .ok token) := by
  rcases adjoin_cutsFrom k text.utf8ByteSize 0 (root.frontier k) with ⟨last, whole, adjoin⟩
  rw [flatten_eq, cuts]
  refine ⟨?lossless, ?refused, ?flattened⟩
  case lossless =>
    intro token flattened
    cases made : (cutsFrom k text.utf8ByteSize 0 (root.frontier k)).mapM (Cut.make text.toList) with
    | error =>
      rw [made] at flattened
      cases flattened
    | ok tokens =>
      rw [made] at flattened
      cases flattened
      have start : byteCount [] = 0 := rfl
      rw [← List.nil_append text.toList] at made
      rcases adjoin.leafText_of_made start made with ⟨after, same, reached⟩
      have size := byteCount_toList text
      rw [same, byteCount_append] at size
      have nothing : after = [] := byteCount_eq_zero_iff.mp (by omega)
      rw [nothing, List.append_nil] at same
      exact ⟨tokens, rfl, same.symm⟩
  case refused =>
    intro error
    have refused : ∀ tokens : Except TokenizeError (List Token),
        tokens.map Token.list = .error error ↔ tokens = .error error := by
      intro tokens
      cases tokens <;> simp [Except.map]
    rw [refused, mapM_eq_error_iff]
    refine exists_congr fun earlier => exists_congr fun cut => exists_congr fun later => ?_
    refine and_congr_right fun split => ?_
    rw [split] at adjoin
    have ordered := List.forall_mem_append.mp adjoin.ordered
    refine and_congr ?_ (Cut.make_eq_error_iff (List.forall_mem_cons.mp ordered.2).1)
    exact forall₂_congr fun c before => Cut.exists_make_iff (ordered.1 c before)
  case flattened =>
    intro onBoundaries
    have last : IsBoundary text.toList text.utf8ByteSize := by
      rw [← byteCount_toList]
      exact isBoundary_byteCount text.toList
    have clean : ∀ c ∈ cutsFrom k text.utf8ByteSize 0 (root.frontier k), c.Clean text.toList :=
      clean_of_mem_cutsFrom k (isBoundary_zero _) last fun node emitted =>
        onBoundaries node (mem_nodes_of_mem_frontier emitted)
    cases made : (cutsFrom k text.utf8ByteSize 0 (root.frontier k)).mapM (Cut.make text.toList) with
    | ok tokens => exact ⟨.list tokens, rfl⟩
    | error =>
      rcases mapM_eq_error_iff.mp made with ⟨earlier, cut, later, split, _, failure⟩
      have listed : cut ∈ cutsFrom k text.utf8ByteSize 0 (root.frontier k) := by
        rw [split]
        exact List.mem_append_right _ List.mem_cons_self
      have unclean := (Cut.make_eq_error_iff (adjoin.ordered cut listed)).mp failure
      exact absurd (clean cut listed) unclean.1

/-- What a parser recovers from an error: the second node overlaps the first one, which is opaque,
the third is empty, the fourth ends before it starts and its child lies outside of it. -/
theorem flatten_lossless_recovered :
    let recovered : SyntaxNode := .mk "source" true 0 6
      [.mk "string" true 0 3 [.mk "quote" false 0 1 []], .mk "ERROR" true 1 4 [],
        .mk "missing" false 4 4 [], .mk "block" true 5 3 [.mk "bracket" false 4 6 []]]
    recovered.OnBoundaries "aé(b)".toList ∧
      ∃ children, recovered.flatten ⟨["string"], []⟩ "aé(b)" = .ok (.list children) ∧
        children.flatMap Token.leafText = "aé(b)".toList := by
  intro recovered
  have onBoundaries : recovered.OnBoundaries "aé(b)".toList := by decide
  rcases flatten_lossless ⟨["string"], []⟩ recovered "aé(b)" with ⟨lossless, _, flattened⟩
  rcases flattened onBoundaries with ⟨token, same⟩
  rcases lossless token same with ⟨children, list, leaves⟩
  rw [list] at same
  exact ⟨onBoundaries, children, same, leaves⟩

end SyntaxNode

end BracketColoring

import BracketColoring.Proofs.Literals.Scan
import BracketColoring.Proofs.Occurrence.Leaves
import BracketColoring.Proofs.Position.Order
import BracketColoring.Proofs.Settings.Valid

/-!
# Where occurrences lie

`Placed p text os` says that the occurrences `os` are literals at their places in a text that starts
at the position `p`, one after the other. Texts that follow each other have their occurrences put
together (`Placed.append`); so the walk over a tree places what it finds, because the scan of a leaf
and the list of leaves are built in the same way.
-/

namespace BracketColoring

/-- The occurrence is a literal of a text that starts at `p`, at its place. -/
def Occurrence.LiesAt (o : Occurrence) (p : Position) (text : List Char) : Prop :=
  ∃ before after, text = before ++ o.literal.toList ++ after ∧
    o.range.start = p.advance before ∧ o.range.stop = o.range.start.advance o.literal.toList

def Occurrence.binding (o : Occurrence) : Binding := ⟨o.literal, o.pair, o.role⟩

/-- One occurrence ends before the other begins. -/
def Occurrence.Before (a b : Occurrence) : Prop := a.range.stop ≤ b.range.start

/-- The occurrences are literals of a text that starts at `p`, at their places and in order. -/
structure Placed (p : Position) (text : List Char) (os : List Occurrence) : Prop where
  lies : ∀ o ∈ os, o.LiesAt p text
  filled : ∀ o ∈ os, o.literal.toList ≠ []
  ordered : os.Pairwise Occurrence.Before

namespace Occurrence

variable {o : Occurrence} {p : Position} {a b : List Char}

theorem LiesAt.le_start (lies : o.LiesAt p a) : p ≤ o.range.start := by
  obtain ⟨before, after, -, start, -⟩ := lies
  rw [start]
  exact p.le_advance before

theorem LiesAt.stop_le (lies : o.LiesAt p a) : o.range.stop ≤ p.advance a := by
  obtain ⟨before, after, rfl, start, stop⟩ := lies
  rw [stop, start, Position.advance_append, Position.advance_append]
  exact Position.le_advance _ after

theorem LiesAt.start_lt_stop (lies : o.LiesAt p a) (filled : o.literal.toList ≠ []) :
    o.range.start < o.range.stop := by
  obtain ⟨before, after, -, -, stop⟩ := lies
  rw [stop]
  exact Position.lt_advance _ filled

theorem LiesAt.append_right (lies : o.LiesAt p a) : o.LiesAt p (a ++ b) := by
  obtain ⟨before, after, rfl, start, stop⟩ := lies
  exact ⟨before, after ++ b, by simp, start, stop⟩

theorem LiesAt.append_left (lies : o.LiesAt (p.advance a) b) : o.LiesAt p (a ++ b) := by
  obtain ⟨before, after, rfl, start, stop⟩ := lies
  exact ⟨a ++ before, after, by simp, by rw [start, Position.advance_append], stop⟩

end Occurrence

namespace Placed

variable {p : Position} {a b : List Char} {os os' : List Occurrence}

theorem nil (p : Position) (text : List Char) : Placed p text [] :=
  ⟨by simp, by simp, .nil⟩

theorem append (first : Placed p a os) (second : Placed (p.advance a) b os') :
    Placed p (a ++ b) (os ++ os') where
  lies o membership := by
    rcases List.mem_append.mp membership with inFirst | inSecond
    · exact (first.lies o inFirst).append_right
    · exact (second.lies o inSecond).append_left
  filled o membership := by
    rcases List.mem_append.mp membership with inFirst | inSecond
    · exact first.filled o inFirst
    · exact second.filled o inSecond
  ordered := by
    refine List.pairwise_append.mpr ⟨first.ordered, second.ordered, ?_⟩
    intro o inFirst o' inSecond
    exact le_trans (first.lies o inFirst).stop_le (second.lies o' inSecond).le_start

theorem start_lt_stop (placed : Placed p a os) {o : Occurrence} (membership : o ∈ os) :
    o.range.start < o.range.stop :=
  (placed.lies o membership).start_lt_stop (placed.filled o membership)

/-- Occurrences that do not overlap start one after the other. -/
theorem starts_increase (placed : Placed p a os) :
    os.Pairwise fun o o' => o.range.start < o'.range.start := by
  refine placed.ordered.imp_of_mem ?_
  intro o o' membership _ before
  exact lt_of_lt_of_le (placed.start_lt_stop membership) before

theorem ranges_nodup (placed : Placed p a os) : (os.map (·.range)).Nodup := by
  refine List.pairwise_map.mpr (placed.starts_increase.imp ?_)
  intro o o' before
  exact Range.ne_of_start_lt before

theorem lines_increase (placed : Placed p a os) : os.Pairwise fun o o' => o.line ≤ o'.line :=
  placed.starts_increase.imp fun before => Position.line_le_of_le (le_of_lt before)

theorem filter (placed : Placed p a os) (keep : Occurrence → Bool) :
    Placed p a (os.filter keep) where
  lies o membership := placed.lies o (List.mem_of_mem_filter membership)
  filled o membership := placed.filled o (List.mem_of_mem_filter membership)
  ordered := placed.ordered.filter keep

theorem stop_le_start (placed : Placed p a os) {i j : Nat} {o o' : Occurrence}
    (first : os[i]? = some o) (second : os[j]? = some o') (before : i < j) :
    o.range.stop ≤ o'.range.start := by
  rcases List.getElem?_eq_some_iff.mp first with ⟨inside, here⟩
  rcases List.getElem?_eq_some_iff.mp second with ⟨inside', there⟩
  have ordered := List.pairwise_iff_getElem.mp placed.ordered i j inside inside' before
  rwa [here, there] at ordered

/-- Where an occurrence starts says which it is. -/
theorem eq_of_start_eq (placed : Placed p a os) {o o' : Occurrence} (first : o ∈ os)
    (second : o' ∈ os) (same : o.range.start = o'.range.start) : o = o' := by
  have distinct : (os.map fun o => o.range.start).Nodup :=
    List.pairwise_map.mpr (placed.starts_increase.imp ne_of_lt)
  exact List.inj_on_of_nodup_map distinct first second same

end Placed

namespace Literals

variable {t : Literals}

/-- What a scan found is placed in the text it was found in, and ends where that text ends. -/
theorem placed_locate (p : Position) (found : List Found)
    (filled : ∀ f ∈ found, f.binding.literal.toList ≠ []) :
    Placed p (found.flatMap Found.whole) (locate p found).1 ∧
      (locate p found).2 = p.advance (found.flatMap Found.whole) := by
  induction found generalizing p with
  | nil => exact ⟨.nil p _, by simp [locate]⟩
  | cons f rest ih =>
    have afterwards : ((p.advance f.gap).advance f.binding.literal.toList) = p.advance f.whole := by
      rw [Found.whole, Position.advance_append]
    have first : Placed p f.whole [⟨⟨p.advance f.gap, p.advance f.whole⟩, f.binding.literal,
        f.binding.pair, f.binding.role⟩] := by
      refine ⟨?_, ?_, List.pairwise_singleton _ _⟩
      · intro o membership
        rw [List.mem_singleton.mp membership]
        exact ⟨f.gap, [], by simp [Found.whole], rfl, afterwards.symm⟩
      · intro o membership
        rw [List.mem_singleton.mp membership]
        exact filled f List.mem_cons_self
    obtain ⟨placed, ending⟩ :=
      ih (p.advance f.whole) fun f' membership => filled f' (List.mem_cons_of_mem _ membership)
    simp only [locate, afterwards, List.flatMap_cons]
    exact ⟨first.append placed, by rw [ending, Position.advance_append]⟩

theorem placed_occurrencesIn (nonEmpty : t.NonEmpty) (p : Position) (text : List Char) :
    Placed p text (t.occurrencesIn p text).1 ∧ (t.occurrencesIn p text).2 = p.advance text := by
  have filled : ∀ f ∈ (t.scan text).1, f.binding.literal.toList ≠ [] := fun f membership =>
    nonEmpty _ (t.mem_bindings_of_mem_scan text f membership)
  obtain ⟨placed, ending⟩ := placed_locate p (t.scan text).1 filled
  have whole := t.flatMap_scan nonEmpty text
  constructor
  · have extended := placed.append (.nil _ (t.scan text).2)
    rw [whole, List.append_nil] at extended
    exact extended
  · calc (locate p (t.scan text).1).2.advance (t.scan text).2
      _ = (p.advance ((t.scan text).1.flatMap Found.whole)).advance (t.scan text).2 := by
        rw [ending]
      _ = p.advance text := by rw [← Position.advance_append, whole]

theorem placed_mapLeaf (nonEmpty : t.NonEmpty) (p : Position) (leaf : Leaf) :
    Placed p leaf.text (t.mapLeaf p leaf).1 ∧ (t.mapLeaf p leaf).2 = p.advance leaf.text := by
  unfold mapLeaf
  split
  · exact placed_occurrencesIn nonEmpty p leaf.text
  · exact ⟨.nil p _, rfl⟩

theorem placed_mapLeaves (nonEmpty : t.NonEmpty) (p : Position) (leaves : List Leaf) :
    Placed p (leaves.flatMap (·.text)) (t.mapLeaves p leaves).occurrences ∧
      (t.mapLeaves p leaves).finish = p.advance (leaves.flatMap (·.text)) := by
  induction leaves generalizing p with
  | nil => exact ⟨.nil p _, by simp [mapLeaves]⟩
  | cons leaf rest ih =>
    obtain ⟨first, reached⟩ := placed_mapLeaf nonEmpty p leaf
    obtain ⟨later, ending⟩ := ih (p.advance leaf.text)
    simp only [mapLeaves, reached, List.flatMap_cons]
    exact ⟨first.append later, by rw [ending, Position.advance_append]⟩

theorem bindings_locate (p : Position) (found : List Found) :
    (locate p found).1.map Occurrence.binding = found.map (·.binding) := by
  induction found generalizing p with
  | nil => rfl
  | cons f rest ih => simpa [locate, Occurrence.binding] using ih _

theorem binding_mem_of_mem_mapLeaf {p : Position} {leaf : Leaf} {o : Occurrence}
    (membership : o ∈ (t.mapLeaf p leaf).1) : o.binding ∈ t.bindings := by
  unfold mapLeaf at membership
  split at membership
  · have found : o.binding ∈ (t.scan leaf.text).1.map (·.binding) := by
      rw [← bindings_locate p]
      exact List.mem_map_of_mem membership
    obtain ⟨f, scanned, same⟩ := List.mem_map.mp found
    rw [← same]
    exact t.mem_bindings_of_mem_scan leaf.text f scanned
  · cases membership

theorem binding_mem_of_mem_mapLeaves {p : Position} {leaves : List Leaf} {o : Occurrence}
    (membership : o ∈ (t.mapLeaves p leaves).occurrences) : o.binding ∈ t.bindings := by
  induction leaves generalizing p with
  | nil => cases membership
  | cons leaf rest ih =>
    rcases List.mem_append.mp membership with here | later
    · exact binding_mem_of_mem_mapLeaf here
    · exact ih later

end Literals

namespace Token

variable {t : Literals}

/-- The occurrences of a tree are placed in the text of its leaves. -/
theorem placed_occurrences (nonEmpty : t.NonEmpty) (root : Token) :
    Placed .origin root.leafText (root.occurrences t).occurrences := by
  rw [occurrences_eq_mapLeaves]
  exact (Literals.placed_mapLeaves nonEmpty .origin root.leaves).1

theorem finish_occurrences (nonEmpty : t.NonEmpty) (root : Token) :
    (root.occurrences t).finish = Position.origin.advance root.leafText := by
  rw [occurrences_eq_mapLeaves]
  exact (Literals.placed_mapLeaves nonEmpty .origin root.leaves).2

theorem binding_mem_of_mem_occurrences {root : Token} {o : Occurrence}
    (membership : o ∈ (root.occurrences t).occurrences) : o.binding ∈ t.bindings := by
  rw [occurrences_eq_mapLeaves] at membership
  exact Literals.binding_mem_of_mem_mapLeaves membership

end Token

/-! ## Occurrences in a document -/

theorem Settings.Valid.knows_of_occurrence {s : Settings} (valid : s.Valid) {root : Token}
    {o : Occurrence} (membership : o ∈ (root.occurrences s.literals).occurrences) :
    s.Knows o.pair :=
  valid.knows_of_binding (Token.binding_mem_of_mem_occurrences membership)

theorem Settings.Valid.lines_increase {s : Settings} (valid : s.Valid) (root : Token) :
    (root.occurrences s.literals).occurrences.Pairwise fun o o' => o.line ≤ o'.line :=
  (Token.placed_occurrences valid.literals_nonEmpty root).lines_increase

/-- The occurrences are literals of the text, at their places and without overlap, and the text
ends where the walk ended. -/
structure Mapped.PointsInto (mapped : Mapped) (text : List Char) : Prop where
  finish : mapped.finish = Position.origin.advance text
  lies : ∀ o ∈ mapped.occurrences, o.LiesAt .origin text
  filled : ∀ o ∈ mapped.occurrences, o.range.start < o.range.stop
  ordered : mapped.occurrences.Pairwise Occurrence.Before
  distinct : (mapped.occurrences.map (·.range)).Nodup
  lines : mapped.occurrences.Pairwise fun o o' => o.line ≤ o'.line

/-- The ranges of a tree's occurrences point at their literals in the text of its leaves. -/
theorem Token.occurrences_pointInto {s : Settings} (valid : s.Valid) (root : Token) :
    (root.occurrences s.literals).PointsInto root.leafText := by
  have placed := placed_occurrences valid.literals_nonEmpty root
  constructor
  case finish => exact finish_occurrences valid.literals_nonEmpty root
  case lies => exact placed.lies
  case filled =>
    intro o membership
    exact placed.start_lt_stop membership
  case ordered => exact placed.ordered
  case distinct => exact placed.ranges_nodup
  case lines => exact placed.lines_increase

theorem Token.occurrences_pointInto_nested :
    let call : Token := .node (.other "call") (.list
      [.node .punctuation (.text "(["), .node .string (.text ")\n"), .node .punctuation (.text "])")])
    Settings.classic.Valid ∧
      ((Token.list [.text "f\n", call]).occurrences Settings.classic.literals).PointsInto
        "f\n([)\n])".toList :=
  ⟨Settings.valid_classic, Token.occurrences_pointInto Settings.valid_classic _⟩

end BracketColoring

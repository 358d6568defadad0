import BracketColoring.PairIndex
import BracketColoring.Proofs.Matching.Meeting
import BracketColoring.Proofs.Settings.Valid
import BracketColoring.Session

/-!
# Lines built with lookups that can fail

Matching looks up pairs by ids, piles by pairs, colors by indices and lines by numbers. Here each of
these lookups can fail, and then there is no result. `Shaped` is what keeps them from failing: stacks
are of the kind that the settings ask for, and all ids on stacks and lines are those of pairs. Every
step of matching keeps it, and gives the same as `Settings.matchNext` and the functions built on it.
-/

namespace BracketColoring

/-! ## Stacks -/

namespace MatchStack

/-- The mode that a stack is for. -/
def kind : MatchStack → ColorMode
  | .shared .. => .consecutive
  | .perPair _ => .independent

/-- A stack as the settings ask for: of their kind, with a pile for each pair if the pairs are apart,
and with known pairs only, each on its own pile. -/
structure Shaped (s : Settings) (stack : MatchStack) : Prop where
  kind : stack.kind = s.mode
  fits : stack.Fits s
  known : ∀ e ∈ stack.entries, s.Knows e.pair

variable {s : Settings} {stack : MatchStack}

theorem shaped_start (s : Settings) : (start s).Shaped s where
  kind := by
    unfold start empty
    cases s.mode <;> rfl
  fits := fits_start s
  known := by simp

theorem kind_matchNext (d : PairDefinition) (o : Occurrence) :
    (s.matchNext d o stack).2.2.kind = stack.kind := by
  cases stack with
  | perPair piles => rfl
  | shared es opened =>
    unfold Settings.matchNext Settings.matchShared
    cases o.role with
    | opening => rfl
    | closing =>
      cases es with
      | nil => rfl
      | cons e rest => by_cases same : e.pair = d.id <;> simp [same, kind]

theorem Shaped.matchNext (shaped : stack.Shaped s) {d : PairDefinition} {o : Occurrence}
    (present : s.pair? o.pair = some d) (numbered : d.id = o.pair) :
    (s.matchNext d o stack).2.2.Shaped s := by
  have knows : s.Knows d.id := ⟨d, numbered ▸ present, rfl⟩
  obtain ⟨inside, -⟩ := List.getElem?_eq_some_iff.mp present
  obtain ⟨meets, fits⟩ := Settings.matchNext_meets (o := o) shaped.fits (numbered ▸ inside)
  refine ⟨(kind_matchNext d o).trans shaped.kind, fits, ?_⟩
  intro e waiting
  generalize s.matchNext d o stack = met at meets waiting
  cases meets with
  | opened color next role changed =>
    rcases List.mem_cons.mp (changed.mem_iff.mp waiting) with rfl | old
    · exact knows
    · exact shaped.known e old
  | matched top next role own changed =>
    exact shaped.known e (changed.mem_iff.mpr (List.mem_cons_of_mem top waiting))
  | alone role => exact shaped.known e waiting

end MatchStack

/-! ## One occurrence -/

/-- The color at an index, which is taken modulo the number of colors and then looked up. -/
def PairDefinition.guardedColorAt (d : PairDefinition) (index : Nat) : Option Color :=
  let colors := d.palette.toList
  if colors.length = 0 then none else colors[index % colors.length]?

theorem PairDefinition.guardedColorAt_eq (d : PairDefinition) (index : Nat) :
    d.guardedColorAt index = some (d.colorAt index) := by
  have filled : d.palette.toList.length ≠ 0 := by
    rw [d.palette.length_toList]
    exact Nat.ne_of_gt d.palette.size_pos
  rw [guardedColorAt, if_neg filled]
  exact List.getElem?_eq_getElem _

namespace Settings

/-- Meets an occurrence. The pair is looked up by its id, its pile and its colors as well. -/
def guardedMatch (s : Settings) (o : Occurrence) (stack : MatchStack) :
    Option (Color × Status × MatchStack) := do
  let d ← s.pairs[o.pair]?
  match stack with
  | .shared es opened =>
    match o.role with
    | .opening =>
      let index := (if s.cycleOpenings then opened else es.length)
        + (if s.uniqueOpening then d.id else 0)
      let color ← d.guardedColorAt index
      return (color, .opened, .shared (⟨d.id, color, o.range⟩ :: es) (opened + 1))
    | .closing => return s.matchShared d o es opened
  | .perPair piles =>
    let es ← piles[d.id]?
    match o.role with
    | .opening =>
      let color ← d.guardedColorAt es.length
      return (color, .opened, .perPair (piles.set d.id (⟨d.id, color, o.range⟩ :: es)))
    | .closing =>
      let (color, status, es) := matchOwn d o es
      return (color, status, .perPair (piles.set d.id es))

theorem guardedMatch_eq {s : Settings} {stack : MatchStack} (shaped : stack.Shaped s)
    {o : Occurrence} {d : PairDefinition} (present : s.pair? o.pair = some d)
    (numbered : d.id = o.pair) : s.guardedMatch o stack = some (s.matchNext d o stack) := by
  have found : s.pairs[o.pair]? = some d := present
  obtain ⟨inside, -⟩ := List.getElem?_eq_some_iff.mp found
  cases stack with
  | shared es opened =>
    cases role : o.role <;>
      simp [guardedMatch, found, role, matchNext, matchShared, sharedColor, d.guardedColorAt_eq]
  | perPair piles =>
    obtain ⟨sized, -⟩ := shaped.fits
    rw [← sized, ← numbered] at inside
    have pile : piles[d.id]? = some piles[d.id] := List.getElem?_eq_getElem inside
    cases role : o.role <;>
      simp [guardedMatch, found, role, matchNext, matchOwn, pile, d.guardedColorAt_eq]

end Settings

/-! ## Lines -/

namespace Line

/-- Both stacks of a line have the shape that the settings ask for, and its pairs are known. -/
structure Shaped (s : Settings) (l : Line) : Prop where
  carriedIn : l.carriedIn.Shaped s
  carriedOut : l.carriedOut.Shaped s
  known : ∀ c ∈ l.occurrences, s.Knows c.occurrence.pair

def guardedProcess (s : Settings) (l : Line) (o : Occurrence) : Option Line := do
  let (color, status, stack) ← s.guardedMatch o l.carriedOut
  return { l with carriedOut := stack }.record ⟨o, color, status⟩

variable {s : Settings} {l : Line} {o : Occurrence}

theorem shaped_blank {stack : MatchStack} (shaped : stack.Shaped s) (index : Nat) :
    (blank index stack).Shaped s :=
  ⟨shaped, shaped, by simp [blank]⟩

theorem guardedProcess_eq (shaped : l.Shaped s) (known : s.Knows o.pair) :
    l.guardedProcess s o = some (l.process s o) := by
  obtain ⟨d, present, numbered⟩ := known
  simp [guardedProcess, process, present,
    Settings.guardedMatch_eq shaped.carriedOut present numbered]

theorem Shaped.process (shaped : l.Shaped s) (known : s.Knows o.pair) :
    (l.process s o).Shaped s := by
  obtain ⟨d, present, numbered⟩ := id known
  unfold Line.process
  rw [present]
  refine ⟨shaped.carriedIn, shaped.carriedOut.matchNext present numbered, ?_⟩
  intro c recorded
  rcases List.mem_append.mp recorded with old | new
  · exact shaped.known c old
  · rw [List.mem_singleton.mp new]
    exact known

end Line

/-! ## The cache -/

namespace LineCache

structure Shaped (s : Settings) (c : LineCache) : Prop where
  start : c.start.Shaped s
  lines : ∀ l ∈ c.lines, l.Shaped s

/-- Matches an occurrence on a line, which is looked up once it has been built. -/
def guardedProcess (s : Settings) (c : LineCache) (index : Nat) (o : Occurrence) :
    Option LineCache := do
  let c := c.extend (index + 1)
  let l ← c.lines[index]?
  let l ← l.guardedProcess s o
  return { c with lines := c.lines.set index l }

def guardedProcessAll (s : Settings) (c : LineCache) (os : List Occurrence) : Option LineCache :=
  os.foldlM (fun c o => c.guardedProcess s o.line o) c

/-- The openings that still wait after the last line, of which the pairs are looked up. -/
def guardedUnclosed (s : Settings) (c : LineCache) : Option (List (StackEntry × PairDefinition)) :=
  match c.last? with
  | some l => l.carriedOut.entries.mapM fun e => (s.pairs[e.pair]?).map fun d => (e, d)
  | none => some []

def guardedColorMap (s : Settings) (c : LineCache) : Option ColorMap := do
  let unclosed ← c.guardedUnclosed s
  return ColorMap.ofPaint s.colors (c.painted (unclosed.map fun (e, d) => (e.opening, d.orphan)))

def guardedPairIndex (s : Settings) (c : LineCache) : Option PairIndex := do
  let unclosed ← c.guardedUnclosed s
  return PairIndex.inOrder (PairIndex.matchedPairs [] c.occurrences)
    (PairIndex.loneClosings c.occurrences ++ PairIndex.loneOpenings unclosed)

variable {s : Settings} {c : LineCache}

theorem shaped_forSettings (s : Settings) : (forSettings s).Shaped s :=
  ⟨MatchStack.shaped_start s, by simp [forSettings, empty]⟩

/-- The line of an occurrence is there once it has been built, and no other line changes. -/
theorem process_eq_set (c : LineCache) (index : Nat) (o : Occurrence) :
    ∃ l, (c.extend (index + 1)).lines[index]? = some l ∧
      c.process s index o =
        { c.extend (index + 1) with
          lines := (c.extend (index + 1)).lines.set index (l.process s o) } := by
  have sized := c.size_extend (index + 1)
  have inside : index < (c.extend (index + 1)).lines.length := by
    rw [size] at sized
    omega
  refine ⟨_, List.getElem?_eq_getElem inside, ?_⟩
  unfold process
  simp only
  rw [List.modify_eq_set_getElem?, List.getElem?_eq_getElem inside]
  rfl

namespace Shaped

theorem carried (shaped : c.Shaped s) : c.carried.Shaped s := by
  unfold LineCache.carried last?
  cases last : c.lines.getLast? with
  | none => exact shaped.start
  | some l => exact (shaped.lines l (List.mem_of_getLast? last)).carriedOut

theorem extend (shaped : c.Shaped s) (count : Nat) : (c.extend count).Shaped s := by
  refine ⟨shaped.start, ?_⟩
  intro l membership
  rcases List.mem_append.mp membership with old | new
  · exact shaped.lines l old
  · obtain ⟨i, -, rfl⟩ := List.mem_map.mp new
    exact Line.shaped_blank shaped.carried i

theorem truncate (shaped : c.Shaped s) (index : Nat) : (c.truncate index).Shaped s :=
  ⟨shaped.start, fun l membership => shaped.lines l (List.mem_of_mem_take membership)⟩

theorem process (shaped : c.Shaped s) (index : Nat) {o : Occurrence} (known : s.Knows o.pair) :
    (c.process s index o).Shaped s := by
  have extended := shaped.extend (index + 1)
  obtain ⟨l, present, equal⟩ := c.process_eq_set (s := s) index o
  rw [equal]
  refine ⟨shaped.start, ?_⟩
  intro l' membership
  rcases List.mem_or_eq_of_mem_set membership with old | rfl
  · exact extended.lines l' old
  · exact (extended.lines l (List.mem_of_getElem? present)).process known

theorem processAll (shaped : c.Shaped s) {os : List Occurrence}
    (known : ∀ o ∈ os, s.Knows o.pair) : (c.processAll s os).Shaped s := by
  induction os generalizing c with
  | nil => exact shaped
  | cons o rest ih =>
    obtain ⟨here, known⟩ := List.forall_mem_cons.mp known
    exact ih (shaped.process o.line here) known

end Shaped

theorem guardedProcess_eq (shaped : c.Shaped s) (index : Nat) {o : Occurrence}
    (known : s.Knows o.pair) : c.guardedProcess s index o = some (c.process s index o) := by
  obtain ⟨l, present, equal⟩ := c.process_eq_set (s := s) index o
  have extended := (shaped.extend (index + 1)).lines l (List.mem_of_getElem? present)
  simp [guardedProcess, present, Line.guardedProcess_eq extended known, equal]

theorem guardedProcessAll_eq (shaped : c.Shaped s) {os : List Occurrence}
    (known : ∀ o ∈ os, s.Knows o.pair) :
    c.guardedProcessAll s os = some (c.processAll s os) := by
  induction os generalizing c with
  | nil => rfl
  | cons o rest ih =>
    obtain ⟨here, known⟩ := List.forall_mem_cons.mp known
    simp only [guardedProcessAll, List.foldlM_cons, guardedProcess_eq shaped o.line here]
    exact ih (shaped.process o.line here) known

theorem mapM_eq_filterMap {α β : Type} {f : α → Option β} {xs : List α}
    (each : ∀ x ∈ xs, ∃ y, f x = some y) : xs.mapM f = some (xs.filterMap f) := by
  induction xs with
  | nil => rfl
  | cons x rest ih =>
    obtain ⟨⟨y, here⟩, each⟩ := List.forall_mem_cons.mp each
    simp [here, ih each]

theorem guardedUnclosed_eq (shaped : c.Shaped s) : c.guardedUnclosed s = some (c.unclosed s) := by
  unfold guardedUnclosed unclosed last?
  cases last : c.lines.getLast? with
  | none => rfl
  | some l =>
    apply mapM_eq_filterMap
    intro e waiting
    obtain ⟨d, present, -⟩ :=
      (shaped.lines l (List.mem_of_getLast? last)).carriedOut.known e waiting
    exact ⟨(e, d), Option.map_eq_some_iff.mpr ⟨d, present, rfl⟩⟩

theorem guardedColorMap_eq (shaped : c.Shaped s) : c.guardedColorMap s = some (c.colorMap s) := by
  simp [guardedColorMap, guardedUnclosed_eq shaped, colorMap, swept]

theorem guardedPairIndex_eq (shaped : c.Shaped s) : c.guardedPairIndex s = some (c.pairIndex s) := by
  simp [guardedPairIndex, guardedUnclosed_eq shaped, pairIndex]

end LineCache

end BracketColoring

import BracketColoring.LineCache
import BracketColoring.Proofs.Settings.Valid

/-!
# Matching a sequence of occurrences

`Settings.matchAll` meets occurrences one after the other on one stack. A line is such a run from
the stack it starts with, and the runs of lines that follow each other are one run; so what becomes
of a bracket can be said of sequences, without lines.
-/

namespace BracketColoring

namespace MatchStack

variable {s : Settings}

theorem start_of_consecutive (mode : s.mode = .consecutive) : start s = .shared [] 0 := by
  rw [start, mode, empty]

theorem start_of_independent (mode : s.mode = .independent) :
    start s = .perPair (List.replicate s.pairs.length []) := by
  rw [start, mode, empty]

end MatchStack

namespace Settings

/-- Meets occurrences in turn: what was recorded of each, and the stack after them. -/
def matchAll (s : Settings) (stack : MatchStack) :
    List Occurrence → List ColoredOccurrence × MatchStack
  | [] => ([], stack)
  | o :: rest =>
    match s.pair? o.pair with
    | none => matchAll s stack rest
    | some d =>
      let (color, status, next) := s.matchNext d o stack
      let (recorded, last) := matchAll s next rest
      (⟨o, color, status⟩ :: recorded, last)

variable {s : Settings} {stack : MatchStack}

@[simp] theorem matchAll_nil : s.matchAll stack [] = ([], stack) := rfl

theorem matchAll_append (a b : List Occurrence) :
    s.matchAll stack (a ++ b) =
      ((s.matchAll stack a).1 ++ (s.matchAll (s.matchAll stack a).2 b).1,
        (s.matchAll (s.matchAll stack a).2 b).2) := by
  induction a generalizing stack with
  | nil => rfl
  | cons o rest ih =>
    simp only [List.cons_append, matchAll]
    cases s.pair? o.pair with
    | none => exact ih
    | some d => simp only [ih, List.cons_append]

theorem matchAll_singleton {o : Occurrence} {d : PairDefinition} (known : s.pair? o.pair = some d) :
    s.matchAll stack [o] =
      ([⟨o, (s.matchNext d o stack).1, (s.matchNext d o stack).2.1⟩],
        (s.matchNext d o stack).2.2) := by
  simp [matchAll, known]

/-- Of each occurrence, what it meets is the stack after the ones before it. -/
theorem getElem?_matchAll {os : List Occurrence} (known : ∀ o ∈ os, s.Knows o.pair) {i : Nat}
    {o : Occurrence} (present : os[i]? = some o) {d : PairDefinition}
    (pair : s.pair? o.pair = some d) :
    (s.matchAll stack os).1[i]? =
      let before := (s.matchAll stack (os.take i)).2
      some ⟨o, (s.matchNext d o before).1, (s.matchNext d o before).2.1⟩ := by
  induction os generalizing stack i with
  | nil => simp at present
  | cons first rest ih =>
    obtain ⟨d', present', -⟩ := known first List.mem_cons_self
    cases i with
    | zero =>
      simp only [List.getElem?_cons_zero, Option.some.injEq] at present
      subst present
      simp [matchAll, pair]
    | succ i =>
      have knownRest : ∀ o ∈ rest, s.Knows o.pair := fun o' membership =>
        known o' (List.mem_cons_of_mem first membership)
      simpa [matchAll, present'] using @ih (s.matchNext d' first stack).2.2 knownRest i present

/-- Every occurrence of a known pair is recorded, and nothing else is. -/
theorem occurrences_matchAll {os : List Occurrence} (known : ∀ o ∈ os, s.Knows o.pair) :
    (s.matchAll stack os).1.map (·.occurrence) = os := by
  induction os generalizing stack with
  | nil => rfl
  | cons o rest ih =>
    obtain ⟨d, present, -⟩ := known o List.mem_cons_self
    have later : ∀ next, (s.matchAll next rest).1.map (·.occurrence) = rest := fun _ =>
      ih fun o' membership => known o' (List.mem_cons_of_mem _ membership)
    simp only [matchAll, present, List.map_cons, later]

theorem occurrence_mem_of_mem_matchAll {os : List Occurrence} (known : ∀ o ∈ os, s.Knows o.pair)
    {c : ColoredOccurrence} (recorded : c ∈ (s.matchAll stack os).1) : c.occurrence ∈ os := by
  have all : (s.matchAll stack os).1.map (·.occurrence) = os := occurrences_matchAll known
  rw [← all]
  exact List.mem_map_of_mem recorded

end Settings

namespace Line

def processAll (s : Settings) (l : Line) (os : List Occurrence) : Line := os.foldl (process s) l

/-- A line goes on from where it is by a run from its stack. -/
theorem processAll_eq (s : Settings) (l : Line) (os : List Occurrence) :
    l.processAll s os =
      { l with
        carriedOut := (s.matchAll l.carriedOut os).2
        occurrences := l.occurrences ++ (s.matchAll l.carriedOut os).1
        paint := l.paint.recordAll (s.matchAll l.carriedOut os).1 } := by
  induction os generalizing l with
  | nil => simp [processAll, ColorMap.recordAll]
  | cons o rest ih =>
    have step : l.processAll s (o :: rest) = (l.process s o).processAll s rest := rfl
    rw [step, ih]
    simp only [process, record, Settings.matchAll]
    cases s.pair? o.pair with
    | none => rfl
    | some d => simp [ColorMap.recordAll]

theorem processAll_concat (s : Settings) (l : Line) (os : List Occurrence) (o : Occurrence) :
    l.processAll s (os ++ [o]) = (l.processAll s os).process s o := by
  simp [processAll]

end Line

end BracketColoring

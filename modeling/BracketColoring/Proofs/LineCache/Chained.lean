import BracketColoring.Proofs.ColorMap.Recorded
import BracketColoring.Proofs.LineCache.ByLine

/-!
# Chains of lines

In a cache that was built line after line, each line goes on where the line before it ended, and
holds what its own occurrences give from there (`getElem?_ofLines`). So the lines can be checked one
by one, and together they are one run, as if the document had one line.
-/

namespace BracketColoring.LineCache

/-- Every line follows from the line before it and from its own occurrences. -/
structure Chained (s : Settings) (c : LineCache) : Prop where
  numbered : ∀ (i : Nat) (l : Line), c.lines[i]? = some l → l.index = i
  first : ∀ l : Line, c.lines[0]? = some l → l.carriedIn = .empty s.mode s.pairs.length
  next : ∀ (i : Nat) (l l' : Line), c.lines[i]? = some l → c.lines[i + 1]? = some l' →
    l'.carriedIn = l.carriedOut
  placed : ∀ l ∈ c.lines, ∀ o ∈ l.occurrences, o.occurrence.line = l.index
  processed : ∀ l ∈ c.lines,
    (Line.blank l.index l.carriedIn).processAll s (l.occurrences.map (·.occurrence)) = l
  painted : ∀ l ∈ c.lines, l.paint.Groups l.occurrences ∧ l.paint = .recordAll ⟨[]⟩ l.occurrences

variable {s : Settings} {oss : List (List Occurrence)}

theorem getElem?_ofLines {i : Nat} {os : List Occurrence} (present : oss[i]? = some os) :
    (ofLines s oss).lines[i]? =
      some ((Line.blank i (ofLines s (oss.take i)).carried).processAll s os) := by
  obtain ⟨inside, -⟩ := List.getElem?_eq_some_iff.mp present
  have before : (ofLines s (oss.take i)).size = i := by
    rw [size_ofLines, List.length_take]
    omega
  have upTo : (ofLines s oss).lines.take (i + 1) = (ofLines s (oss.take (i + 1))).lines :=
    congrArg lines (truncate_ofLines oss (i + 1))
  rw [← List.getElem?_take_of_lt (Nat.lt_succ_self i), upTo, List.take_add_one, present,
    Option.toList_some, ofLines_concat, addLine, before]
  simp only [size] at before
  rw [List.getElem?_append_right (Nat.le_of_eq before), before, Nat.sub_self]
  rfl

theorem exists_of_getElem?_ofLines {i : Nat} {l : Line}
    (present : (ofLines s oss).lines[i]? = some l) :
    ∃ os, oss[i]? = some os ∧
      l = (Line.blank i (ofLines s (oss.take i)).carried).processAll s os := by
  obtain ⟨inside, -⟩ := List.getElem?_eq_some_iff.mp present
  rw [length_lines_ofLines] at inside
  have listed := List.getElem?_eq_getElem inside
  have line := getElem?_ofLines (s := s) listed
  exact ⟨_, listed, Option.some.inj (present.symm.trans line)⟩

theorem carried_take_succ {i : Nat} {os : List Occurrence} (present : oss[i]? = some os) :
    (ofLines s (oss.take (i + 1))).carried =
      (s.matchAll (ofLines s (oss.take i)).carried os).2 := by
  rw [List.take_add_one, present, Option.toList_some, ofLines_concat, carried_addLine]

theorem chained_ofLines (known : ∀ o ∈ oss.flatten, s.Knows o.pair)
    (placed : ∀ (i : Nat) (os : List Occurrence), oss[i]? = some os → ∀ o ∈ os, o.line = i) :
    (ofLines s oss).Chained s := by
  have same : ∀ {i : Nat} {os : List Occurrence}, oss[i]? = some os → ∀ stack,
      (s.matchAll stack os).1.map (·.occurrence) = os := by
    intro i os present stack
    exact Settings.occurrences_matchAll fun o membership =>
      known o (List.mem_flatten_of_mem (List.mem_of_getElem? present) membership)
  constructor
  case numbered =>
    intro i l present
    obtain ⟨os, -, rfl⟩ := exists_of_getElem?_ofLines present
    rw [Line.processAll_eq]
    rfl
  case first =>
    intro l present
    obtain ⟨os, -, rfl⟩ := exists_of_getElem?_ofLines present
    rw [Line.processAll_eq]
    rfl
  case next =>
    intro i l l' present present'
    obtain ⟨os, listed, rfl⟩ := exists_of_getElem?_ofLines present
    obtain ⟨os', -, rfl⟩ := exists_of_getElem?_ofLines present'
    simp only [Line.processAll_eq, Line.blank]
    exact carried_take_succ listed
  case placed =>
    intro l membership c recorded
    obtain ⟨i, present⟩ := List.getElem?_of_mem membership
    obtain ⟨os, listed, rfl⟩ := exists_of_getElem?_ofLines present
    simp only [Line.processAll_eq, Line.blank, List.nil_append] at recorded ⊢
    apply placed i os listed
    rw [← same listed (ofLines s (oss.take i)).carried]
    exact List.mem_map_of_mem recorded
  case processed =>
    intro l membership
    obtain ⟨i, present⟩ := List.getElem?_of_mem membership
    obtain ⟨os, listed, rfl⟩ := exists_of_getElem?_ofLines present
    simp only [Line.processAll_eq, Line.blank, List.nil_append, same listed]
  case painted =>
    intro l membership
    have upToDate := paint_ofLines oss l membership
    refine ⟨?_, upToDate⟩
    rw [upToDate]
    exact ColorMap.groups_recordAll l.occurrences

/-- All occurrences on one line, from the stack at the start, give what is on the lines. -/
theorem processAll_occurrences (known : ∀ o ∈ oss.flatten, s.Knows o.pair) :
    (Line.blank 0 (.start s)).processAll s ((ofLines s oss).occurrences.map (·.occurrence)) =
      ⟨0, .start s, (ofLines s oss).carried, (ofLines s oss).occurrences,
        .recordAll ⟨[]⟩ (ofLines s oss).occurrences⟩ := by
  have run := run_ofLines (s := s) oss
  rw [map_occurrences_ofLines known, Line.processAll_eq]
  simp only [Line.blank, List.nil_append, ← run]

end BracketColoring.LineCache

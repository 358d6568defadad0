import BracketColoring.Proofs.Matching.Run
import BracketColoring.Session
import Mathlib.Data.List.Induction

/-!
# Caches by the occurrences of their lines

A cache that was built line after line is given by the occurrences of each line: `ofLines s oss` is
that cache. Dropping lines and building lines are then operations on the list `oss` alone. The main
statement is `rebuild_ofLines`: when occurrences come in the order of their lines, rebuilding keeps
the lines it was given and adds, for every line that is missing, the occurrences that start on it.
-/

namespace BracketColoring

def onLine (os : List Occurrence) (line : Nat) : List Occurrence :=
  os.filter fun o => o.line = line

theorem onLine_append (a b : List Occurrence) (line : Nat) :
    onLine (a ++ b) line = onLine a line ++ onLine b line :=
  List.filter_append ..

theorem onLine_eq_nil {os : List Occurrence} {line : Nat} (apart : ∀ o ∈ os, o.line ≠ line) :
    onLine os line = [] :=
  List.filter_eq_nil_iff.mpr fun o membership => by simpa using apart o membership

theorem mem_onLine {os : List Occurrence} {line : Nat} {o : Occurrence} :
    o ∈ onLine os line ↔ o ∈ os ∧ o.line = line := by
  simp [onLine]

/-- The occurrences of several lines, line by line. -/
def onLines (os : List Occurrence) (first count : Nat) : List (List Occurrence) :=
  (List.range' first count).map (onLine os)

@[simp] theorem length_onLines (os : List Occurrence) (first count : Nat) :
    (onLines os first count).length = count := by
  simp [onLines]

theorem getElem?_onLines {os : List Occurrence} {first count i : Nat} {group : List Occurrence} :
    (onLines os first count)[i]? = some group ↔ i < count ∧ onLine os (first + i) = group := by
  rw [onLines, List.getElem?_map, Option.map_eq_some_iff]
  constructor
  · rintro ⟨line, present, rfl⟩
    obtain ⟨inside, rfl⟩ := List.getElem?_eq_some_iff.mp present
    rw [List.length_range'] at inside
    exact ⟨inside, by simp⟩
  · rintro ⟨inside, rfl⟩
    exact ⟨first + i, by simp [List.getElem?_range' inside], rfl⟩

theorem onLines_add (os : List Occurrence) (first count more : Nat) :
    onLines os first (count + more) = onLines os first count ++ onLines os (first + count) more := by
  rw [onLines, ← List.range'_append_1, List.map_append]
  rfl

theorem take_onLines (os : List Occurrence) (first count index : Nat) :
    (onLines os first count).take index = onLines os first (min index count) := by
  rw [onLines, onLines, ← List.map_take]
  rcases Nat.le_total index count with inside | outside
  · rw [List.take_range'_of_length_ge inside, Nat.min_eq_left inside]
  · rw [List.take_range'_of_length_le outside, Nat.min_eq_right outside]

theorem onLines_inj {os os' : List Occurrence} {first count : Nat} :
    onLines os first count = onLines os' first count ↔
      ∀ line, first ≤ line → line < first + count → onLine os line = onLine os' line := by
  rw [onLines, onLines, List.map_inj_left]
  constructor
  · intro same line above below
    exact same line (List.mem_range'_1.mpr ⟨above, below⟩)
  · intro same line membership
    obtain ⟨above, below⟩ := List.mem_range'_1.mp membership
    exact same line above below

theorem onLines_eq_replicate {os : List Occurrence} {first count : Nat}
    (outside : ∀ o ∈ os, o.line < first) : onLines os first count = List.replicate count [] := by
  refine List.eq_replicate_iff.mpr ⟨length_onLines .., ?_⟩
  intro group membership
  obtain ⟨line, inRange, rfl⟩ := List.mem_map.mp membership
  have above := (List.mem_range'_1.mp inRange).1
  exact onLine_eq_nil fun o inside => Nat.ne_of_lt (Nat.lt_of_lt_of_le (outside o inside) above)

/-- An occurrence after all others is the last one on its line, and the lines after it are empty. -/
theorem onLines_concat {os : List Occurrence} {o : Occurrence} {first count : Nat} (more : Nat)
    (before : ∀ o' ∈ os, o'.line ≤ o.line) (place : o.line = first + count) :
    onLines (os ++ [o]) first (count + 1 + more) =
      onLines os first count ++ (onLine os o.line ++ [o]) :: List.replicate more [] := by
  have here : onLine (os ++ [o]) o.line = onLine os o.line ++ [o] := by
    rw [onLine_append]
    simp [onLine]
  have prior : onLines (os ++ [o]) first count = onLines os first count := by
    refine onLines_inj.mpr fun line _ below => ?_
    have apart : onLine [o] line = [] := onLine_eq_nil (by simp; omega)
    rw [onLine_append, apart, List.append_nil]
  have later : onLines (os ++ [o]) (first + count + 1) more = List.replicate more [] := by
    refine onLines_eq_replicate fun o' membership => ?_
    rcases List.mem_append.mp membership with inside | new
    · have := before o' inside
      omega
    · rw [List.mem_singleton.mp new]
      omega
  rw [Nat.add_assoc, onLines_add, prior, onLines_add, later]
  rw [place] at here ⊢
  simp [onLines, here]

theorem filter_lt_succ {os : List Occurrence} (sorted : os.Pairwise fun a b => a.line ≤ b.line)
    (count : Nat) : (os.filter fun o => o.line < count + 1) =
      (os.filter fun o => o.line < count) ++ onLine os count := by
  induction os with
  | nil => rfl
  | cons o rest ih =>
    obtain ⟨after, sorted⟩ := List.pairwise_cons.mp sorted
    have later := ih sorted
    unfold onLine at later ⊢
    rcases Nat.lt_trichotomy o.line count with before | here | behind
    · have apart : o.line ≠ count := Nat.ne_of_lt before
      have within : o.line < count + 1 := Nat.lt_succ_of_lt before
      rw [List.filter_cons_of_pos (by rwa [decide_eq_true_eq]),
        List.filter_cons_of_pos (by rwa [decide_eq_true_eq]),
        List.filter_cons_of_neg (by rwa [decide_eq_true_eq]), later, List.cons_append]
    · -- Nothing after an occurrence on the last line lies before it.
      have none : (rest.filter fun o => o.line < count) = [] := by
        rw [List.filter_eq_nil_iff]
        intro o' membership
        have := after o' membership
        simp only [decide_eq_true_eq]
        omega
      have within : o.line < count + 1 := Nat.lt_succ_of_le (Nat.le_of_eq here)
      have outside : ¬ o.line < count := Nat.not_lt_of_ge (Nat.le_of_eq here.symm)
      rw [none, List.nil_append] at later
      rw [List.filter_cons_of_pos (by rwa [decide_eq_true_eq]),
        List.filter_cons_of_neg (by rwa [decide_eq_true_eq]),
        List.filter_cons_of_pos (by rwa [decide_eq_true_eq]), none, later, List.nil_append]
    · have outside : ¬ o.line < count := Nat.not_lt_of_ge (Nat.le_of_lt behind)
      have beyond : ¬ o.line < count + 1 := Nat.not_lt_of_ge behind
      have apart : o.line ≠ count := Nat.ne_of_gt behind
      rw [List.filter_cons_of_neg (by rwa [decide_eq_true_eq]),
        List.filter_cons_of_neg (by rwa [decide_eq_true_eq]),
        List.filter_cons_of_neg (by rwa [decide_eq_true_eq]), later]

/-- The occurrences on the first lines are those that start there. -/
theorem flatten_onLines {os : List Occurrence} (sorted : os.Pairwise fun a b => a.line ≤ b.line)
    (count : Nat) : (onLines os 0 count).flatten = os.filter fun o => o.line < count := by
  induction count with
  | zero => simp [onLines]
  | succ count ih =>
    rw [onLines_add, List.flatten_append, ih, filter_lt_succ sorted]
    simp [onLines]

namespace LineCache

/-- Adds a line that goes on from the last one. -/
def addLine (s : Settings) (c : LineCache) (os : List Occurrence) : LineCache :=
  { c with lines := c.lines ++ [(Line.blank c.size c.carried).processAll s os] }

def ofLines (s : Settings) (oss : List (List Occurrence)) : LineCache :=
  oss.foldl (addLine s) (forSettings s)

variable {s : Settings} {oss : List (List Occurrence)}

@[simp] theorem ofLines_nil : ofLines s [] = forSettings s := rfl

theorem ofLines_concat (oss : List (List Occurrence)) (os : List Occurrence) :
    ofLines s (oss ++ [os]) = addLine s (ofLines s oss) os := by
  simp [ofLines]

@[simp] theorem size_ofLines (oss : List (List Occurrence)) : (ofLines s oss).size = oss.length := by
  induction oss using List.reverseRecOn with
  | nil => rfl
  | append_singleton oss os ih =>
    rw [ofLines_concat, List.length_append]
    simpa [addLine, size] using ih

theorem start_ofLines (oss : List (List Occurrence)) : (ofLines s oss).start = .start s := by
  induction oss using List.reverseRecOn with
  | nil => rfl
  | append_singleton oss os ih =>
    rw [ofLines_concat]
    exact ih

theorem length_lines_ofLines (oss : List (List Occurrence)) :
    (ofLines s oss).lines.length = oss.length := size_ofLines oss

/-! ## Dropping lines -/

theorem truncate_addLine {c : LineCache} {os : List Occurrence} {index : Nat}
    (inside : index ≤ c.size) : (addLine s c os).truncate index = c.truncate index := by
  simp only [addLine, truncate]
  rw [List.take_append_of_le_length inside]

theorem truncate_of_size_le {c : LineCache} {index : Nat} (outside : c.size ≤ index) :
    c.truncate index = c := by
  simp only [truncate]
  rw [List.take_of_length_le outside]

@[simp] theorem truncate_ofLines (oss : List (List Occurrence)) (index : Nat) :
    (ofLines s oss).truncate index = ofLines s (oss.take index) := by
  induction oss using List.reverseRecOn with
  | nil => simp [truncate, forSettings, empty]
  | append_singleton oss os ih =>
    by_cases inside : index ≤ oss.length
    · rw [ofLines_concat, truncate_addLine (by simpa using inside), ih,
        List.take_append_of_le_length inside]
    · have long : (oss ++ [os]).length ≤ index := by
        rw [List.length_append, List.length_singleton]
        omega
      rw [List.take_of_length_le long, truncate_of_size_le (by simpa using long)]

/-! ## Building lines -/

theorem carried_addLine_nil (c : LineCache) : (addLine s c []).carried = c.carried := by
  simp [addLine, carried, last?, Line.processAll, Line.blank]

theorem extend_eq (c : LineCache) (count : Nat) :
    c.extend count = (List.replicate (count - c.size) []).foldl (addLine s) c := by
  obtain ⟨missing, equal⟩ : ∃ missing, count - c.size = missing := ⟨_, rfl⟩
  rw [extend, equal]
  clear equal
  induction missing generalizing c with
  | zero => simp
  | succ missing ih =>
    have sized : (addLine s c []).size = c.size + 1 := by simp [addLine, size]
    have later := ih (addLine s c [])
    rw [sized, carried_addLine_nil] at later
    rw [List.replicate_succ, List.foldl_cons, ← later]
    simp [addLine, List.range'_succ, Line.processAll]

theorem extend_ofLines (oss : List (List Occurrence)) (count : Nat) :
    (ofLines s oss).extend count = ofLines s (oss ++ List.replicate (count - oss.length) []) := by
  rw [extend_eq, size_ofLines, ofLines, ofLines, List.foldl_append]

theorem modify_length_concat {α : Type} (f : α → α) (xs : List α) (x : α) :
    (xs ++ [x]).modify xs.length f = xs ++ [f x] := by
  induction xs with
  | nil => rfl
  | cons y xs ih => simpa using ih

theorem process_last (oss : List (List Occurrence)) (os : List Occurrence) (o : Occurrence) :
    (ofLines s (oss ++ [os])).process s oss.length o = ofLines s (oss ++ [os ++ [o]]) := by
  have built : oss.length + 1 ≤ (ofLines s (oss ++ [os])).size := by simp
  rw [process, extend_of_le _ _ built, ofLines_concat, ofLines_concat]
  simp only [addLine, size_ofLines]
  rw [← length_lines_ofLines (s := s) oss, modify_length_concat, Line.processAll_concat]

theorem process_eq (c : LineCache) (line : Nat) (o : Occurrence) :
    c.process s line o = (c.extend (line + 1)).process s line o := by
  rw [process, process, extend_of_le (c.extend (line + 1)) (line + 1) (by rw [size_extend]; omega)]

theorem processAll_concat (c : LineCache) (os : List Occurrence) (o : Occurrence) :
    c.processAll s (os ++ [o]) = (c.processAll s os).process s o.line o := by
  simp [processAll]

/-- Occurrences that come in the order of their lines, on lines that are not built yet, are put on
their lines. -/
theorem extend_processAll (oss : List (List Occurrence)) (os : List Occurrence) (count : Nat)
    (above : ∀ o ∈ os, oss.length ≤ o.line) (below : ∀ o ∈ os, o.line < count)
    (sorted : os.Pairwise fun a b => a.line ≤ b.line) :
    ((ofLines s oss).processAll s os).extend count =
      ofLines s (oss ++ onLines os oss.length (count - oss.length)) := by
  -- The last occurrence lies on the last line so far or later, so that the hypothesis for the others
  -- is used with the lines up to its own.
  induction os using List.reverseRecOn generalizing count with
  | nil =>
    simp only [processAll, List.foldl_nil]
    rw [extend_ofLines, onLines_eq_replicate (by simp)]
  | append_singleton os o ih =>
    obtain ⟨earlier, -, last⟩ := List.pairwise_append.mp sorted
    have before : ∀ o' ∈ os, o'.line ≤ o.line := fun o' membership =>
      last o' membership o List.mem_cons_self
    obtain ⟨width, place⟩ := Nat.exists_eq_add_of_le (above o (by simp))
    obtain ⟨more, reach⟩ := Nat.exists_eq_add_of_lt (below o (by simp))
    have built := ih (o.line + 1) (fun o' membership => above o' (by simp [membership]))
      (fun o' membership => Nat.lt_succ_of_le (before o' membership)) earlier
    have position : (oss ++ onLines os oss.length width).length = o.line := by simp [place]
    have processed : (ofLines s oss).processAll s (os ++ [o]) =
        ofLines s (oss ++ onLines os oss.length width ++ [onLine os o.line ++ [o]]) := by
      have ready : oss.length + width + 1 - oss.length = width + 1 := by omega
      rw [processAll_concat, process_eq, built, place, ready, onLines_add, ← List.append_assoc]
      rw [← process_last, position]
      simp [onLines, place]
    have remaining : count - o.line - 1 = more := by omega
    have total : count - oss.length = width + 1 + more := by omega
    rw [processed, extend_ofLines, total, onLines_concat more before place]
    have rest : count - (oss ++ onLines os oss.length width ++ [onLine os o.line ++ [o]]).length =
        more := by
      rw [List.length_append, position, List.length_singleton]
      omega
    rw [rest]
    simp

/-- Rebuilding keeps the lines that are given and adds the missing ones. -/
theorem rebuild_ofLines (oss : List (List Occurrence)) (os : List Occurrence) (lines : Nat)
    (sorted : os.Pairwise fun a b => a.line ≤ b.line) :
    Session.rebuild s (ofLines s oss) os lines =
      ofLines s (oss ++ onLines os oss.length (lines - oss.length)) := by
  unfold Session.rebuild
  rw [size_ofLines]
  simp only
  rw [extend_processAll]
  · congr 2
    refine onLines_inj.mpr fun line above below => ?_
    simp only [onLine, List.filter_filter]
    refine List.filter_congr fun o _ => ?_
    by_cases here : o.line = line
    · simp only [here, decide_true, Bool.true_and, Bool.and_eq_true, decide_eq_true_eq]
      omega
    · simp [here]
  · intro o membership
    have := (List.mem_filter.mp membership).2
    simp only [Bool.and_eq_true, decide_eq_true_eq] at this
    exact this.1
  · intro o membership
    have := (List.mem_filter.mp membership).2
    simp only [Bool.and_eq_true, decide_eq_true_eq] at this
    exact this.2
  · exact sorted.filter _

/-! ## The lines as one run -/

theorem carried_addLine (c : LineCache) (os : List Occurrence) :
    (addLine s c os).carried = (s.matchAll c.carried os).2 := by
  simp [addLine, carried, last?, Line.processAll_eq, Line.blank]

theorem occurrences_addLine (c : LineCache) (os : List Occurrence) :
    (addLine s c os).occurrences = c.occurrences ++ (s.matchAll c.carried os).1 := by
  simp [addLine, occurrences, Line.processAll_eq, Line.blank]

/-- Every line keeps its map of colors up to date. -/
theorem paint_ofLines (oss : List (List Occurrence)) :
    ∀ l ∈ (ofLines s oss).lines, l.paint = .recordAll ⟨[]⟩ l.occurrences := by
  induction oss using List.reverseRecOn with
  | nil => simp [ofLines, forSettings, empty]
  | append_singleton oss os ih =>
    intro l membership
    rw [ofLines_concat, addLine] at membership
    rcases List.mem_append.mp membership with earlier | last
    · exact ih l earlier
    · rw [List.mem_singleton.mp last, Line.processAll_eq]
      rfl

/-- All lines together record what one run over all occurrences records, and end with its stack. -/
theorem run_ofLines (oss : List (List Occurrence)) :
    ((ofLines s oss).occurrences, (ofLines s oss).carried) =
      s.matchAll (.start s) oss.flatten := by
  induction oss using List.reverseRecOn with
  | nil => rfl
  | append_singleton oss os ih =>
    have recorded := congrArg Prod.fst ih
    have stack := congrArg Prod.snd ih
    simp only at recorded stack
    rw [ofLines_concat, occurrences_addLine, carried_addLine, List.flatten_append,
      Settings.matchAll_append, recorded, stack]
    simp

theorem line_lt_size_processAll (c : LineCache) (os : List Occurrence) :
    ∀ o ∈ os, o.line < (c.processAll s os).size := by
  induction os using List.reverseRecOn with
  | nil => simp
  | append_singleton os o ih =>
    have sized : (c.processAll s (os ++ [o])).size =
        max (c.processAll s os).size (o.line + 1) := by
      rw [processAll_concat, process, ← size_extend]
      exact List.length_modify ..
    intro o' membership
    rw [sized]
    rcases List.mem_append.mp membership with earlier | last
    · exact Nat.lt_of_lt_of_le (ih o' earlier) (Nat.le_max_left ..)
    · rw [List.mem_singleton.mp last]
      exact Nat.le_max_right ..

/-- Occurrences that come in the order of their lines are put on their lines. -/
theorem exists_ofLines_processAll {os : List Occurrence}
    (sorted : os.Pairwise fun a b => a.line ≤ b.line) :
    ∃ oss : List (List Occurrence), oss.flatten = os ∧
      (forSettings s).processAll s os = ofLines s oss := by
  have below := line_lt_size_processAll (s := s) (forSettings s) os
  generalize count : ((forSettings s).processAll s os).size = size at below
  refine ⟨onLines os 0 size, ?_, ?_⟩
  · rw [flatten_onLines sorted, List.filter_eq_self]
    simpa using below
  · have built := extend_processAll (s := s) [] os size (by simp) below sorted
    rwa [ofLines_nil, extend_of_le _ _ (Nat.le_of_eq count.symm), List.nil_append, List.length_nil,
      Nat.sub_zero] at built

/-- They are matched as one run, whatever lines they are on. -/
theorem run_processAll {os : List Occurrence} (sorted : os.Pairwise fun a b => a.line ≤ b.line) :
    (((forSettings s).processAll s os).occurrences, ((forSettings s).processAll s os).carried) =
      s.matchAll (.start s) os := by
  obtain ⟨oss, rfl, built⟩ := exists_ofLines_processAll (s := s) sorted
  rw [built, run_ofLines]

theorem occurrences_processAll {os : List Occurrence}
    (sorted : os.Pairwise fun a b => a.line ≤ b.line) :
    ((forSettings s).processAll s os).occurrences = (s.matchAll (.start s) os).1 :=
  congrArg Prod.fst (run_processAll sorted)

/-- The lines together hold the occurrences that they were built from. -/
theorem map_occurrences_ofLines (known : ∀ o ∈ oss.flatten, s.Knows o.pair) :
    (ofLines s oss).occurrences.map (·.occurrence) = oss.flatten := by
  have recorded : (s.matchAll (.start s) oss.flatten).1.map (·.occurrence) = oss.flatten :=
    Settings.occurrences_matchAll known
  rw [← run_ofLines] at recorded
  exact recorded

/-- A cache remembers the occurrences of each of its lines. -/
theorem lineOccurrences_ofLines {oss : List (List Occurrence)}
    (known : ∀ os ∈ oss, ∀ o ∈ os, s.Knows o.pair) :
    (ofLines s oss).lines.map (fun l => l.occurrences.map (·.occurrence)) = oss := by
  induction oss using List.reverseRecOn with
  | nil => rfl
  | append_singleton oss os ih =>
    have earlier := ih fun os' membership => known os' (List.mem_append_left _ membership)
    have last : (s.matchAll (ofLines s oss).carried os).1.map (·.occurrence) = os :=
      Settings.occurrences_matchAll (known os (by simp))
    rw [ofLines_concat]
    simp [addLine, earlier, Line.processAll_eq, Line.blank, last]

/-- Different occurrences make different caches. -/
theorem ofLines_inj {oss oss' : List (List Occurrence)}
    (known : ∀ os ∈ oss, ∀ o ∈ os, s.Knows o.pair)
    (known' : ∀ os ∈ oss', ∀ o ∈ os, s.Knows o.pair) :
    ofLines s oss = ofLines s oss' ↔ oss = oss' := by
  constructor
  · intro same
    rw [← lineOccurrences_ofLines known, same, lineOccurrences_ofLines known']
  · rintro rfl
    rfl

/-! ## Caches with good lines -/

/-- The cache was built line after line, from occurrences that are good for the number of the line
they stand on. -/
def Built (s : Settings) (good : Nat → List Occurrence → Prop) (c : LineCache) : Prop :=
  ∃ oss, c = ofLines s oss ∧ ∀ i os, oss[i]? = some os → good i os

namespace Built

variable {good good' : Nat → List Occurrence → Prop} {c : LineCache}

theorem forSettings (s : Settings) : Built s good (.forSettings s) :=
  ⟨[], rfl, by simp⟩

theorem imp (built : Built s good c) (weaker : ∀ i os, good i os → good' i os) :
    Built s good' c := by
  obtain ⟨oss, equal, each⟩ := built
  exact ⟨oss, equal, fun i os present => weaker i os (each i os present)⟩

theorem truncate (built : Built s good c) (index : Nat) :
    Built s (fun i os => i < index ∧ good i os) (c.truncate index) := by
  obtain ⟨oss, rfl, each⟩ := built
  refine ⟨oss.take index, truncate_ofLines oss index, ?_⟩
  intro i os present
  rw [List.getElem?_take] at present
  split at present
  · next inside => exact ⟨inside, each i os present⟩
  · cases present

theorem rebuild (built : Built s good c) (os : List Occurrence) (lines : Nat)
    (sorted : os.Pairwise fun a b => a.line ≤ b.line)
    (added : ∀ i, c.size ≤ i → i < lines → good i (onLine os i)) :
    Built s good (Session.rebuild s c os lines) := by
  obtain ⟨oss, rfl, each⟩ := built
  refine ⟨_, rebuild_ofLines oss os lines sorted, ?_⟩
  intro i group present
  rw [size_ofLines] at added
  by_cases old : i < oss.length
  · rw [List.getElem?_append_left old] at present
    exact each i group present
  · have above : oss.length ≤ i := Nat.le_of_not_lt old
    rw [List.getElem?_append_right above] at present
    obtain ⟨inside, rfl⟩ := getElem?_onLines.mp present
    rw [Nat.add_sub_cancel' above]
    exact added i above (by omega)

/-- A cache is known when the occurrences of each of its lines are. -/
theorem eq_ofLines {os : List Occurrence} (built : Built s (fun i group => group = onLine os i) c) :
    c = ofLines s (onLines os 0 c.size) := by
  obtain ⟨oss, rfl, each⟩ := built
  rw [size_ofLines]
  congr 1
  apply List.ext_getElem?
  intro i
  cases present : oss[i]? with
  | none =>
    have outside := List.getElem?_eq_none_iff.mp present
    rw [List.getElem?_eq_none_iff.mpr (by simpa using outside)]
  | some group =>
    obtain ⟨inside, -⟩ := List.getElem?_eq_some_iff.mp present
    exact (getElem?_onLines.mpr ⟨inside, by rw [each i group present, Nat.zero_add]⟩).symm

end Built

theorem size_rebuild {good : Nat → List Occurrence → Prop} {c : LineCache} (built : Built s good c)
    (os : List Occurrence) (lines : Nat)
    (sorted : os.Pairwise fun a b => a.line ≤ b.line) (short : c.size ≤ lines) :
    (Session.rebuild s c os lines).size = lines := by
  obtain ⟨oss, rfl, -⟩ := built
  rw [size_ofLines] at short
  rw [rebuild_ofLines oss os lines sorted]
  simp
  omega

end LineCache

end BracketColoring

import BracketColoring.Proofs.Matching.Nesting
import BracketColoring.Proofs.PairIndex.Classified

/-!
# Lone closings change nothing

A closing that is left alone leaves the stack as it was, shared or not, so the brackets behind it meet
the same stack with it and without it. That holds for several lone closings at once
(`matchAll_without`): what is recorded of the other brackets, the matched pairs and the stack in the
end are the same when some of them are left out.
-/

namespace BracketColoring

/-- A list without the elements at some places. -/
def without {α : Type} (dropped : Nat → Bool) (xs : List α) : List α :=
  (xs.zipIdx.filter fun p => !dropped p.2).map (·.1)

section

variable {α : Type} {dropped : Nat → Bool} {xs : List α}

@[simp] theorem without_nil (dropped : Nat → Bool) : without dropped ([] : List α) = [] := rfl

theorem without_cons (dropped : Nat → Bool) (x : α) (xs : List α) :
    without dropped (x :: xs) =
      if dropped 0 then without (fun i => dropped (i + 1)) xs
      else x :: without (fun i => dropped (i + 1)) xs := by
  have later : ((xs.zipIdx 1).filter fun p => !dropped p.2).map (·.1) =
      without (fun i => dropped (i + 1)) xs := by
    rw [without, List.zipIdx_succ, List.filter_map, List.map_map]
    rfl
  unfold without at later ⊢
  rw [List.zipIdx_cons, Nat.zero_add, List.filter_cons]
  cases dropped 0 with
  | false => simpa using later
  | true => simpa using later

theorem without_sublist (dropped : Nat → Bool) (xs : List α) : (without dropped xs).Sublist xs := by
  have kept : (without dropped xs).Sublist (xs.zipIdx.map (·.1)) := List.filter_sublist.map _
  rwa [List.zipIdx_map_fst] at kept

end

theorem Meets.stack_of_orphan {d : PairDefinition} {o : Occurrence} {stack next : MatchStack}
    {color : Color} (meets : Meets d o stack (color, .orphan, next)) : next = stack := by
  cases meets
  rfl

@[simp] theorem statusAt_cons_zero (c : ColoredOccurrence) (recorded : List ColoredOccurrence) :
    statusAt (c :: recorded) 0 = some c.status := rfl

@[simp] theorem statusAt_cons_succ (c : ColoredOccurrence) (recorded : List ColoredOccurrence)
    (i : Nat) : statusAt (c :: recorded) (i + 1) = statusAt recorded i := rfl

/-- All the dropped places are those of lone closings. -/
def OrphansAt (recorded : List ColoredOccurrence) (dropped : Nat → Bool) : Prop :=
  ∀ i, dropped i = true → statusAt recorded i = some .orphan

theorem OrphansAt.tail {c : ColoredOccurrence} {recorded : List ColoredOccurrence}
    {dropped : Nat → Bool} (alone : OrphansAt (c :: recorded) dropped) :
    OrphansAt recorded fun i => dropped (i + 1) :=
  fun i here => alone (i + 1) here

theorem OrphansAt.head {c : ColoredOccurrence} {recorded : List ColoredOccurrence}
    {dropped : Nat → Bool} (alone : OrphansAt (c :: recorded) dropped) (here : dropped 0 = true) :
    c.status = .orphan :=
  Option.some.inj (alone 0 here)

/-- A run without some of its lone closings records the same of the others and leaves the same
stack. -/
theorem Settings.matchAll_without {s : Settings} {os : List Occurrence} {stack : MatchStack}
    {dropped : Nat → Bool} (fits : stack.Fits s) (known : ∀ o ∈ os, s.Knows o.pair)
    (alone : OrphansAt (s.matchAll stack os).1 dropped) :
    s.matchAll stack (without dropped os) =
      (without dropped (s.matchAll stack os).1, (s.matchAll stack os).2) := by
  induction os generalizing stack dropped with
  | nil => rfl
  | cons o rest ih =>
    obtain ⟨⟨d, present, numbered⟩, knownRest⟩ := List.forall_mem_cons.mp known
    have inside : d.id < s.pairs.length := by
      rw [numbered]
      exact (List.getElem?_eq_some_iff.mp present).1
    obtain ⟨meets, fitsNext⟩ := matchNext_meets (o := o) fits inside
    simp only [matchAll, present] at alone ⊢
    generalize met : s.matchNext d o stack = result at meets fitsNext alone
    obtain ⟨color, status, next⟩ := result
    have later := ih fitsNext knownRest alone.tail
    rw [without_cons, without_cons]
    cases leftOut : dropped 0 with
    | true =>
      -- The closing is alone, so the stack behind it is the one before it.
      have lone : status = .orphan := alone.head leftOut
      subst lone
      obtain rfl : next = stack := meets.stack_of_orphan
      simpa using later
    | false => simp [matchAll, present, met, later]

theorem PairIndex.matchedPairs_without {recorded : List ColoredOccurrence} {dropped : Nat → Bool}
    (openings : List (Range × Color)) (alone : OrphansAt recorded dropped) :
    matchedPairs openings (without dropped recorded) = matchedPairs openings recorded := by
  induction recorded generalizing openings dropped with
  | nil => rfl
  | cons c rest ih =>
    rw [without_cons]
    cases leftOut : dropped 0 with
    | true => simpa [matchedPairs, alone.head leftOut] using ih openings alone.tail
    | false =>
      cases status : c.status <;> simp [matchedPairs, status, ih _ alone.tail]

namespace LineCache

variable {s : Settings}

theorem unclosed_processAll {os : List Occurrence}
    (sorted : os.Pairwise fun a b => a.line ≤ b.line) :
    ((forSettings s).processAll s os).unclosed s =
      PairIndex.withPairs s ((forSettings s).processAll s os).carried.entries := by
  obtain ⟨oss, -, built⟩ := exists_ofLines_processAll (s := s) sorted
  rw [built, unclosed_ofLines]

/-- Leaving out closings that were left alone changes nothing for the other brackets: neither what is
recorded of them, nor the matched pairs, nor the openings that still wait in the end and the colors
that these take. -/
theorem lone_closings_inert {os : List Occurrence} (known : ∀ o ∈ os, s.Knows o.pair)
    (sorted : os.Pairwise fun a b => a.line ≤ b.line) {dropped : Nat → Bool}
    (alone : OrphansAt ((forSettings s).processAll s os).occurrences dropped) :
    let all := (forSettings s).processAll s os
    let fewer := (forSettings s).processAll s (without dropped os)
    fewer.occurrences = without dropped all.occurrences ∧
      (fewer.pairIndex s).pairs = (all.pairIndex s).pairs ∧
      fewer.carried = all.carried ∧ fewer.unclosed s = all.unclosed s ∧
      fewer.swept s = all.swept s := by
  intro all fewer
  have sortedFewer := sorted.sublist (without_sublist dropped os)
  have run : (all.occurrences, all.carried) = s.matchAll (.start s) os := run_processAll sorted
  have same : (fewer.occurrences, fewer.carried) =
      (without dropped all.occurrences, all.carried) := by
    have alone : OrphansAt (s.matchAll (.start s) os).1 dropped := by
      rw [← run]
      exact alone
    calc (fewer.occurrences, fewer.carried)
      _ = s.matchAll (.start s) (without dropped os) := run_processAll sortedFewer
      _ = (without dropped (s.matchAll (.start s) os).1, (s.matchAll (.start s) os).2) :=
        Settings.matchAll_without (MatchStack.fits_start s) known alone
      _ = (without dropped all.occurrences, all.carried) := by rw [← run]
  obtain ⟨recorded, carried⟩ := Prod.mk.inj same
  have unclosed : fewer.unclosed s = all.unclosed s := by
    rw [unclosed_processAll sortedFewer, unclosed_processAll sorted]
    exact congrArg (fun stack => PairIndex.withPairs s stack.entries) carried
  refine ⟨recorded, ?pairs, carried, unclosed, ?swept⟩
  case pairs =>
    simp only [pairIndex, PairIndex.inOrder]
    rw [recorded, PairIndex.matchedPairs_without [] alone]
  case swept => rw [swept, swept, unclosed]

/-- Two of three lone closings are left out, while openings are counted and one of them waits. -/
theorem lone_closings_inert_counted :
    let s : Settings := { Settings.classic with cycleOpenings := true }
    let mark (line column : Nat) (literal : String) (pair : PairId) (role : Role) : Occurrence :=
      ⟨⟨⟨line, column⟩, ⟨line, column + 1⟩⟩, literal, pair, role⟩
    let os := [mark 0 0 "(" 0 .opening, mark 0 1 "]" 1 .closing, mark 0 2 ")" 0 .closing,
      mark 1 0 ")" 0 .closing, mark 1 1 "[" 1 .opening, mark 2 0 ")" 0 .closing]
    let dropped := fun i => i == 1 || i == 5
    let all := (forSettings s).processAll s os
    let fewer := (forSettings s).processAll s (without dropped os)
    (∀ o ∈ os, s.Knows o.pair) ∧ (os.Pairwise fun a b => a.line ≤ b.line) ∧
      OrphansAt all.occurrences dropped ∧
      fewer.occurrences = without dropped all.occurrences ∧
      (fewer.pairIndex s).pairs = (all.pairIndex s).pairs ∧
      fewer.carried = .shared [⟨1, ⟨"Orchid"⟩, ⟨⟨1, 1⟩, ⟨1, 2⟩⟩⟩] 2 ∧
      fewer.swept s = [(⟨⟨1, 1⟩, ⟨1, 2⟩⟩, ⟨"Red"⟩)] := by
  intro s mark os dropped all fewer
  have known : ∀ o ∈ os, s.Knows o.pair := by decide
  have sorted : os.Pairwise fun a b => a.line ≤ b.line := by decide
  have alone : OrphansAt all.occurrences dropped := by
    intro i here
    have place : i = 1 ∨ i = 5 := by simpa [dropped] using here
    rcases place with rfl | rfl <;> decide +kernel
  have waiting : all.carried = .shared [⟨1, ⟨"Orchid"⟩, ⟨⟨1, 1⟩, ⟨1, 2⟩⟩⟩] 2 := by decide +kernel
  have lone : all.swept s = [(⟨⟨1, 1⟩, ⟨1, 2⟩⟩, ⟨"Red"⟩)] := by decide +kernel
  obtain ⟨recorded, pairs, carried, -, swept⟩ := lone_closings_inert known sorted alone
  exact ⟨known, sorted, alone, recorded, pairs, carried.trans waiting, swept.trans lone⟩

end LineCache

end BracketColoring

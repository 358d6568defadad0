import BracketColoring.Proofs.Matching.Meeting
import BracketColoring.Proofs.Matching.Run
import BracketColoring.Proofs.Position.Order
import Mathlib.Data.List.Induction

/-!
# What becomes of brackets

`Accounted s recorded stack` says that every opening recorded so far is the opening of exactly one
matched closing, or waits on the stack: the recorded openings are, up to order, the openings of the
matched closings together with the waiting ones. Meeting one more occurrence keeps this
(`Accounted.meet`), so it holds of every run (`accounted_matchAll`).
-/

namespace BracketColoring

namespace ColoredOccurrence

def opened? (c : ColoredOccurrence) : Option Range :=
  match c.status with
  | .opened => some c.occurrence.range
  | _ => none

/-- The opening that a matched closing belongs to. -/
def partner? (c : ColoredOccurrence) : Option Range :=
  match c.status with
  | .matched opening => some opening
  | _ => none

end ColoredOccurrence

/-- There is an opening of a pair at a range. -/
def Opens (recorded : List ColoredOccurrence) (pair : PairId) (range : Range) : Prop :=
  ∃ c ∈ recorded, c.status = .opened ∧ c.occurrence.pair = pair ∧ c.occurrence.range = range

theorem Opens.append {recorded : List ColoredOccurrence} {pair : PairId} {range : Range}
    (opens : Opens recorded pair range) (more : List ColoredOccurrence) :
    Opens (recorded ++ more) pair range := by
  obtain ⟨c, membership, rest⟩ := opens
  exact ⟨c, List.mem_append_left more membership, rest⟩

structure Accounted (s : Settings) (recorded : List ColoredOccurrence) (stack : MatchStack) :
    Prop where
  fits : stack.Fits s
  roles : ∀ c ∈ recorded, c.status = .opened ↔ c.occurrence.role = .opening
  alone : ∀ c ∈ recorded, c.status = .orphan →
    ∃ d, s.pair? c.occurrence.pair = some d ∧ c.color = d.orphan
  matched : ∀ c ∈ recorded, ∀ r, c.status = .matched r →
    Opens recorded c.occurrence.pair r ∧ r.start < c.occurrence.range.start
  waiting : ∀ e ∈ stack.entries, Opens recorded e.pair e.opening
  balance : (recorded.filterMap (·.opened?)).Perm
    (recorded.filterMap (·.partner?) ++ stack.entries.map (·.opening))

namespace Accounted

variable {s : Settings} {recorded : List ColoredOccurrence} {stack : MatchStack}

theorem start (s : Settings) : Accounted s [] (.start s) where
  fits := MatchStack.fits_start s
  roles := by simp
  alone := by simp
  matched := by simp
  waiting := by simp
  balance := by simp

theorem concat (accounted : Accounted s recorded stack) {c : ColoredOccurrence} {next : MatchStack}
    (fits : next.Fits s) (role : c.status = .opened ↔ c.occurrence.role = .opening)
    (alone : c.status = .orphan → ∃ d, s.pair? c.occurrence.pair = some d ∧ c.color = d.orphan)
    (matched : ∀ r, c.status = .matched r →
      Opens recorded c.occurrence.pair r ∧ r.start < c.occurrence.range.start)
    (waiting : ∀ e ∈ next.entries, Opens (recorded ++ [c]) e.pair e.opening)
    (balance : (c.opened?.toList ++ stack.entries.map (·.opening)).Perm
      (c.partner?.toList ++ next.entries.map (·.opening))) :
    Accounted s (recorded ++ [c]) next where
  fits := fits
  roles c' membership := by
    rcases List.mem_append.mp membership with old | new
    · exact accounted.roles c' old
    · rw [List.mem_singleton.mp new]
      exact role
  alone c' membership lone := by
    rcases List.mem_append.mp membership with old | new
    · exact accounted.alone c' old lone
    · rw [List.mem_singleton.mp new] at lone ⊢
      exact alone lone
  matched c' membership r closed := by
    rcases List.mem_append.mp membership with old | new
    · obtain ⟨opens, before⟩ := accounted.matched c' old r closed
      exact ⟨opens.append _, before⟩
    · rw [List.mem_singleton.mp new] at closed ⊢
      obtain ⟨opens, before⟩ := matched r closed
      exact ⟨opens.append _, before⟩
  waiting := waiting
  balance := by
    have single : ∀ f : ColoredOccurrence → Option Range, [c].filterMap f = (f c).toList := by
      intro f
      cases found : f c <;> simp [found]
    simp only [List.filterMap_append, single]
    calc List.Perm (recorded.filterMap (·.opened?) ++ c.opened?.toList)
          (recorded.filterMap (·.partner?) ++ stack.entries.map (·.opening) ++ c.opened?.toList) :=
            accounted.balance.append_right _
      List.Perm _ (recorded.filterMap (·.partner?) ++
          (c.opened?.toList ++ stack.entries.map (·.opening))) := by
            rw [List.append_assoc]
            exact List.perm_append_comm.append_left _
      List.Perm _ (recorded.filterMap (·.partner?) ++
          (c.partner?.toList ++ next.entries.map (·.opening))) := balance.append_left _
      _ = recorded.filterMap (·.partner?) ++ c.partner?.toList ++ next.entries.map (·.opening) :=
            (List.append_assoc ..).symm

theorem meet (accounted : Accounted s recorded stack) {o : Occurrence} {d : PairDefinition}
    (known : s.pair? o.pair = some d) (numbered : d.id = o.pair)
    (later : ∀ c ∈ recorded, c.occurrence.range.start < o.range.start) :
    Accounted s (recorded ++ [⟨o, (s.matchNext d o stack).1, (s.matchNext d o stack).2.1⟩])
      (s.matchNext d o stack).2.2 := by
  have inside : d.id < s.pairs.length := by
    rw [numbered]
    exact (List.getElem?_eq_some_iff.mp known).1
  obtain ⟨meets, fits⟩ := Settings.matchNext_meets (o := o) accounted.fits inside
  generalize s.matchNext d o stack = result at meets fits ⊢
  -- An opening is new on both sides of the balance; a matched one goes from the stack to the partners.
  cases meets with
  | opened color next role waits =>
    refine accounted.concat fits (by simp [role]) (by simp) (by simp) ?_ ?_
    · intro e waiting
      rcases List.mem_cons.mp (waits.mem_iff.mp waiting) with rfl | old
      · exact ⟨_, List.mem_append_right _ List.mem_cons_self, rfl, numbered.symm, rfl⟩
      · exact (accounted.waiting e old).append _
    · exact (waits.map (·.opening)).symm
  | matched e next role pair taken =>
    have onTop : e ∈ stack.entries := taken.mem_iff.mpr List.mem_cons_self
    have opens := accounted.waiting e onTop
    refine accounted.concat fits (by simp [role]) (by simp) ?_ ?_ ?_
    · rintro r ⟨⟩
      constructor
      · rw [← numbered, ← pair]
        exact opens
      · obtain ⟨c, membership, -, -, place⟩ := opens
        rw [← place]
        exact later c membership
    · intro e' waiting
      exact (accounted.waiting e' (taken.mem_iff.mpr (List.mem_cons_of_mem e waiting))).append _
    · exact taken.map (·.opening)
  | alone role =>
    refine accounted.concat fits (by simp [role]) ?_ (by simp) ?_ ?_
    · intro _
      exact ⟨d, known, rfl⟩
    · intro e waiting
      exact (accounted.waiting e waiting).append _
    · exact .refl _

end Accounted

/-- In a run over occurrences in order, every bracket is accounted for. -/
theorem accounted_matchAll {s : Settings} {os : List Occurrence}
    (known : ∀ o ∈ os, s.Knows o.pair)
    (ordered : os.Pairwise fun o o' => o.range.start < o'.range.start) :
    Accounted s (s.matchAll (.start s) os).1 (s.matchAll (.start s) os).2 := by
  induction os using List.reverseRecOn with
  | nil => exact .start s
  | append_singleton os o ih =>
    obtain ⟨before, -, last⟩ := List.pairwise_append.mp ordered
    obtain ⟨d, present, numbered⟩ := known o (by simp)
    have knownBefore : ∀ o ∈ os, s.Knows o.pair := by
      intro o' membership
      exact known o' (List.mem_append_left _ membership)
    rw [Settings.matchAll_append, Settings.matchAll_singleton present]
    apply (ih knownBefore before).meet present numbered
    intro c recorded
    have membership : c.occurrence ∈ os :=
      Settings.occurrence_mem_of_mem_matchAll knownBefore recorded
    exact last c.occurrence membership o List.mem_cons_self

end BracketColoring

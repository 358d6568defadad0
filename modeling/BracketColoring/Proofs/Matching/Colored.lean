import BracketColoring.Proofs.Matching.Accounted
import BracketColoring.Proofs.Settings.Colors

/-!
# Colors along a run

`Colored s recorded stack` says that every color recorded so far is one of the settings, that a
waiting opening has the color that was recorded for it, and that a matched closing has the color of
its opening.
-/

namespace BracketColoring

/-- An opening takes its color from the palette of its pair. -/
theorem Settings.matchNext_opening_color {s : Settings} {d : PairDefinition} {o : Occurrence}
    (role : o.role = .opening) (stack : MatchStack) : (s.matchNext d o stack).1 ∈ d.colors := by
  cases stack with
  | shared es opened =>
    simp only [matchNext, matchShared, role]
    exact d.colorAt_mem _
  | perPair piles =>
    simp only [matchNext, matchOwn, role]
    exact d.colorAt_mem _

structure Colored (s : Settings) (recorded : List ColoredOccurrence) (stack : MatchStack) :
    Prop where
  configured : ∀ c ∈ recorded, c.color ∈ s.colors
  waiting : ∀ e ∈ stack.entries,
    ∃ c ∈ recorded, c.status = .opened ∧ c.occurrence.range = e.opening ∧ c.color = e.color
  matched : ∀ c ∈ recorded, ∀ r, c.status = .matched r →
    ∃ c' ∈ recorded, c'.status = .opened ∧ c'.occurrence.range = r ∧ c'.color = c.color

namespace Colored

variable {s : Settings} {recorded : List ColoredOccurrence} {stack : MatchStack}

theorem start (s : Settings) : Colored s [] (.start s) where
  configured := by simp
  waiting := by simp
  matched := by simp

theorem concat (colored : Colored s recorded stack) {c : ColoredOccurrence} {next : MatchStack}
    (configured : c.color ∈ s.colors)
    (waiting : ∀ e ∈ next.entries, e ∈ stack.entries ∨
      c.status = .opened ∧ c.occurrence.range = e.opening ∧ c.color = e.color)
    (matched : ∀ r, c.status = .matched r →
      ∃ e ∈ stack.entries, e.opening = r ∧ e.color = c.color) :
    Colored s (recorded ++ [c]) next where
  configured c' membership := by
    rcases List.mem_append.mp membership with old | new
    · exact colored.configured c' old
    · rw [List.mem_singleton.mp new]
      exact configured
  waiting e inNext := by
    rcases waiting e inNext with old | new
    · obtain ⟨c', membership, rest⟩ := colored.waiting e old
      exact ⟨c', List.mem_append_left _ membership, rest⟩
    · exact ⟨c, by simp, new⟩
  matched c' membership r closed := by
    rcases List.mem_append.mp membership with old | new
    · obtain ⟨o, opened, rest⟩ := colored.matched c' old r closed
      exact ⟨o, List.mem_append_left _ opened, rest⟩
    · rw [List.mem_singleton.mp new] at closed ⊢
      obtain ⟨e, inStack, rfl, color⟩ := matched r closed
      obtain ⟨o, opened, status, place, same⟩ := colored.waiting e inStack
      exact ⟨o, List.mem_append_left _ opened, status, place, same.trans color⟩

theorem meet (colored : Colored s recorded stack) (fits : stack.Fits s) {o : Occurrence}
    {d : PairDefinition} (known : s.pair? o.pair = some d) (numbered : d.id = o.pair) :
    Colored s (recorded ++ [⟨o, (s.matchNext d o stack).1, (s.matchNext d o stack).2.1⟩])
      (s.matchNext d o stack).2.2 := by
  have inside : d.id < s.pairs.length := by
    rw [numbered]
    exact (List.getElem?_eq_some_iff.mp known).1
  obtain ⟨meets, -⟩ := Settings.matchNext_meets (o := o) fits inside
  have palette : o.role = .opening → (s.matchNext d o stack).1 ∈ s.colors := fun role =>
    Settings.mem_colors_of_pair? known (Settings.matchNext_opening_color role stack)
  generalize s.matchNext d o stack = result at meets palette ⊢
  cases meets with
  | opened color next role waits =>
    refine colored.concat (palette role) ?_ (by simp)
    intro e inNext
    rcases List.mem_cons.mp (waits.mem_iff.mp inNext) with rfl | old
    · exact .inr ⟨rfl, rfl, rfl⟩
    · exact .inl old
  | matched e next role pair taken =>
    have onTop : e ∈ stack.entries := taken.mem_iff.mpr List.mem_cons_self
    refine colored.concat ?_ ?_ ?_
    · obtain ⟨c, membership, -, -, same⟩ := colored.waiting e onTop
      exact same ▸ colored.configured c membership
    · intro e' inNext
      exact .inl (taken.mem_iff.mpr (List.mem_cons_of_mem e inNext))
    · rintro r ⟨⟩
      exact ⟨e, onTop, rfl, rfl⟩
  | alone role =>
    refine colored.concat ?_ (fun e inNext => .inl inNext) (by simp)
    exact Settings.mem_colors_of_pair? known d.orphan_mem

end Colored

theorem colored_matchAll {s : Settings} {os : List Occurrence}
    (known : ∀ o ∈ os, s.Knows o.pair) :
    (s.matchAll (.start s) os).2.Fits s ∧
      Colored s (s.matchAll (.start s) os).1 (s.matchAll (.start s) os).2 := by
  induction os using List.reverseRecOn with
  | nil => exact ⟨MatchStack.fits_start s, .start s⟩
  | append_singleton os o ih =>
    obtain ⟨d, present, numbered⟩ := known o (by simp)
    obtain ⟨fits, colored⟩ := ih fun o' membership => known o' (List.mem_append_left _ membership)
    have inside : d.id < s.pairs.length := by
      rw [numbered]
      exact (List.getElem?_eq_some_iff.mp present).1
    rw [Settings.matchAll_append, Settings.matchAll_singleton present]
    exact ⟨(Settings.matchNext_meets fits inside).2, colored.meet fits present numbered⟩

end BracketColoring

import BracketColoring.Matching

/-!
# One occurrence on a stack

Whether the stack is shared or each pair has its own, meeting an occurrence does one of three
things: an opening is put among the waiting ones, a closing takes the opening of its pair away, or a
closing is left alone and nothing changes. `matchNext_meets` says so once for both kinds of stack,
with the waiting openings up to their order.
-/

namespace BracketColoring

namespace MatchStack

/-- A stack that settings can lead to: each pair has its pile, on which only its openings wait. -/
def Fits (s : Settings) : MatchStack → Prop
  | .shared _ _ => True
  | .perPair piles => piles.length = s.pairs.length ∧
      ∀ (i : Nat) (pile : List StackEntry), piles[i]? = some pile → ∀ e ∈ pile, e.pair = i

theorem fits_start (s : Settings) : (start s).Fits s := by
  unfold start empty
  cases s.mode with
  | consecutive => trivial
  | independent =>
    refine ⟨by simp, ?_⟩
    intro i pile present e waiting
    obtain ⟨inside, rfl⟩ := List.getElem?_eq_some_iff.mp present
    simp at waiting

@[simp] theorem entries_start (s : Settings) : (start s).entries = [] := by
  unfold start empty
  cases s.mode with
  | consecutive => rfl
  | independent => simp [entries]

end MatchStack

/-- What meeting an occurrence of the pair `d` does to a stack. -/
inductive Meets (d : PairDefinition) (o : Occurrence) (stack : MatchStack) :
    Color × Status × MatchStack → Prop
  | opened (color : Color) (next : MatchStack) : o.role = .opening →
      next.entries.Perm (⟨d.id, color, o.range⟩ :: stack.entries) →
      Meets d o stack (color, .opened, next)
  | matched (e : StackEntry) (next : MatchStack) : o.role = .closing → e.pair = d.id →
      stack.entries.Perm (e :: next.entries) →
      Meets d o stack (e.color, .matched e.opening, next)
  | alone : o.role = .closing → Meets d o stack (d.orphan, .orphan, stack)

/-- Changing one list of several changes all of them together in the same way. -/
theorem flatMap_set_perm {α β : Type} {f : α → List β} {xs : List α} {i : Nat} {x y : α}
    (present : xs[i]? = some x) {a b : List β} (changed : (a ++ f x).Perm (b ++ f y)) :
    (a ++ xs.flatMap f).Perm (b ++ (xs.set i y).flatMap f) := by
  induction xs generalizing i with
  | nil => simp at present
  | cons z rest ih =>
    cases i with
    | zero =>
      simp only [List.getElem?_cons_zero, Option.some.injEq] at present
      subst present
      simpa using changed.append_right (rest.flatMap f)
    | succ i =>
      simp only [List.set_cons_succ, List.flatMap_cons]
      calc List.Perm (a ++ (f z ++ rest.flatMap f)) (f z ++ (a ++ rest.flatMap f)) :=
            List.perm_append_comm_assoc ..
        List.Perm _ (f z ++ (b ++ (rest.set i y).flatMap f)) := (ih present).append_left _
        List.Perm _ (b ++ (f z ++ (rest.set i y).flatMap f)) := List.perm_append_comm_assoc ..

namespace Settings

variable {s : Settings} {d : PairDefinition} {o : Occurrence}

theorem matchShared_meets (es : List StackEntry) (opened : Nat) :
    Meets d o (.shared es opened) (s.matchShared d o es opened) := by
  unfold matchShared
  cases role : o.role with
  | opening =>
    refine .opened _ _ role ?_
    simp only [MatchStack.entries]
    exact (List.reverse_perm _).trans ((List.reverse_perm es).symm.cons _)
  | closing =>
    cases es with
    | nil => exact .alone role
    | cons e rest =>
      by_cases same : e.pair = d.id
      · simp only [if_pos same]
        refine .matched e _ role same ?_
        simp only [MatchStack.entries]
        exact (List.reverse_perm _).trans ((List.reverse_perm rest).symm.cons e)
      · simp only [if_neg same]
        exact .alone role

theorem fits_matchShared (es : List StackEntry) (opened : Nat) :
    (s.matchShared d o es opened).2.2.Fits s := by
  unfold matchShared
  cases o.role with
  | opening => trivial
  | closing =>
    cases es with
    | nil => trivial
    | cons e rest => by_cases same : e.pair = d.id <;> simp [same, MatchStack.Fits]

/-- With piles, an occurrence meets the pile of its own pair. -/
theorem matchOwn_meets {piles : List (List StackEntry)} {pile : List StackEntry}
    (present : piles[d.id]? = some pile) (own : ∀ e ∈ pile, e.pair = d.id) :
    Meets d o (.perPair piles)
      ((matchOwn d o pile).1, (matchOwn d o pile).2.1,
        .perPair (piles.set d.id (matchOwn d o pile).2.2)) := by
  unfold matchOwn
  cases role : o.role with
  | opening =>
    refine .opened _ _ role (List.Perm.symm ?_)
    refine flatMap_set_perm (f := List.reverse) present (a := [_]) (b := []) ?_
    exact ((List.reverse_perm pile).cons _).trans (List.reverse_perm (_ :: pile)).symm
  | closing =>
    cases pile with
    | nil =>
      -- The empty pile is put back where it was.
      have same : piles.set d.id [] = piles := by
        obtain ⟨inside, empty⟩ := List.getElem?_eq_some_iff.mp present
        rw [← empty, List.set_getElem_self]
      simp only [same]
      exact .alone role
    | cons e rest =>
      refine .matched e _ role (own e List.mem_cons_self) ?_
      refine flatMap_set_perm (f := List.reverse) present (a := []) (b := [e]) ?_
      exact (List.reverse_perm (e :: rest)).trans ((List.reverse_perm rest).symm.cons e)

theorem own_matchOwn {pile : List StackEntry} (own : ∀ e ∈ pile, e.pair = d.id) :
    ∀ e ∈ (matchOwn d o pile).2.2, e.pair = d.id := by
  unfold matchOwn
  intro e waiting
  cases role : o.role with
  | opening =>
    rw [role] at waiting
    rcases List.mem_cons.mp waiting with rfl | old
    · rfl
    · exact own e old
  | closing =>
    rw [role] at waiting
    cases pile with
    | nil => exact own e waiting
    | cons top rest => exact own e (List.mem_cons_of_mem top waiting)

/-- Meeting an occurrence of a known pair, on any stack that fits. -/
theorem matchNext_meets {stack : MatchStack} (fits : stack.Fits s) (known : d.id < s.pairs.length) :
    Meets d o stack (s.matchNext d o stack) ∧ (s.matchNext d o stack).2.2.Fits s := by
  cases stack with
  | shared es opened =>
    exact ⟨matchShared_meets es opened, fits_matchShared es opened⟩
  | perPair piles =>
    obtain ⟨sized, own⟩ := fits
    have inside : d.id < piles.length := sized ▸ known
    have present : piles[d.id]? = some piles[d.id] := List.getElem?_eq_getElem inside
    have ownPile := own d.id _ present
    simp only [matchNext, present, Option.getD_some]
    refine ⟨matchOwn_meets present ownPile, by simpa using sized, ?_⟩
    intro i pile there e waiting
    rw [List.getElem?_set] at there
    by_cases here : d.id = i
    · subst here
      simp only [if_pos inside, ite_true, Option.some.injEq] at there
      subst there
      exact own_matchOwn ownPile e waiting
    · rw [if_neg here] at there
      exact own i pile there e waiting

end Settings

end BracketColoring

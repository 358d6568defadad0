import BracketColoring.Proofs.Matching.Depth

/-!
# Balanced brackets of one pair

Among brackets of one pair a sequence is settled exactly when it is balanced: no prefix has more
closings than openings, and there are as many of both (`settled_iff_balanced`). To find the nesting
in a balanced sequence it is read from the left; `Rising k` says that a sequence is made of `k`
openings that still wait, with settled sequences around them.
-/

namespace BracketColoring

structure Balanced (os : List Occurrence) : Prop where
  prefixes : ∀ n, closings (os.take n) ≤ openings (os.take n)
  total : openings os = closings os

namespace Balanced

theorem nil : Balanced [] where
  prefixes := by simp
  total := rfl

theorem nested {o c : Occurrence} {inner rest : List Occurrence} (opening : o.role = .opening)
    (closing : c.role = .closing) (first : Balanced inner) (second : Balanced rest) :
    Balanced (o :: inner ++ c :: rest) where
  prefixes n := by
    cases n with
    | zero => simp
    | succ n =>
      rw [List.cons_append, List.take_succ_cons, List.take_append, openings_cons, closings_cons,
        openings_append, closings_append, if_pos opening, if_pos opening]
      have inside := first.prefixes n
      cases behind : n - inner.length with
      | zero =>
        rw [List.take_zero, openings_nil, closings_nil]
        omega
      | succ m =>
        have after := second.prefixes m
        rw [List.take_succ_cons, openings_cons, closings_cons, closing]
        simp only [reduceCtorEq, if_false]
        omega
  total := by
    have inside := first.total
    have after := second.total
    simp only [List.cons_append, openings_cons, closings_cons, openings_append, closings_append,
      opening, closing, reduceCtorEq, if_true, if_false]
    omega

end Balanced

theorem Settled.balanced {pair : PairId} {os : List Occurrence} (settled : Settled pair os)
    (own : ∀ o ∈ os, o.pair = pair) : Balanced os := by
  induction settled with
  | nil => exact .nil
  | @stray pair c rest role other _ _ => exact absurd (own c List.mem_cons_self) other
  | @nested pair o c inner rest opening closing same _ _ ihInner ihRest =>
    have numbered : o.pair = pair := own o (by simp)
    refine .nested opening closing (ihInner ?_) (ihRest ?_)
    · intro o' membership
      rw [numbered]
      exact own o' (by simp [membership])
    · exact fun o' membership => own o' (by simp [membership])

/-- Some openings that wait, with settled sequences before, between and behind them. -/
inductive Rising (pair : PairId) : Nat → List Occurrence → Prop
  | settled {os : List Occurrence} : Settled pair os → Rising pair 0 os
  | opening {k : Nat} {before after : List Occurrence} {o : Occurrence} : Rising pair k before →
      o.role = .opening → o.pair = pair → Settled pair after →
      Rising pair (k + 1) (before ++ o :: after)

namespace Rising

variable {pair : PairId} {k : Nat} {os : List Occurrence}

theorem settle (pending : Rising pair k os) {more : List Occurrence} (settled : Settled pair more) :
    Rising pair k (os ++ more) := by
  cases pending with
  | settled before => exact .settled (before.append settled)
  | opening before role numbered after =>
    rw [List.append_assoc, List.cons_append]
    exact .opening before role numbered (after.append settled)

theorem close (pending : Rising pair (k + 1) os) {c : Occurrence} (role : c.role = .closing)
    (same : c.pair = pair) : Rising pair k (os ++ [c]) := by
  cases pending with
  | @opening _ before after o outer opens numbered behind =>
    have closed : Settled pair (o :: after ++ c :: []) :=
      .nested opens role (same.trans numbered.symm) (numbered ▸ behind) (.nil pair)
    simpa using outer.settle closed

/-- If no prefix has more closings than openings, nothing stays alone, and the openings that are too
many wait. -/
theorem of_prefixes (own : ∀ o ∈ os, o.pair = pair)
    (prefixes : ∀ n, closings (os.take n) ≤ openings (os.take n)) :
    Rising pair (openings os - closings os) os := by
  induction os using List.reverseRecOn with
  | nil => exact .settled (.nil pair)
  | append_singleton os o ih =>
    have whole : closings (os ++ [o]) ≤ openings (os ++ [o]) := by
      simpa only [List.take_length] using prefixes (os ++ [o]).length
    have before : ∀ n, closings (os.take n) ≤ openings (os.take n) := by
      intro n
      have shorter := prefixes (min n os.length)
      rwa [List.take_append_of_le_length (Nat.min_le_right ..), ← List.take_take,
        List.take_length] at shorter
    have pending := ih (fun o' membership => own o' (by simp [membership])) before
    have enough : closings os ≤ openings os := by simpa using before os.length
    have numbered : o.pair = pair := own o (by simp)
    rw [openings_append, closings_append, openings_cons, closings_cons] at whole ⊢
    cases role : o.role with
    | opening =>
      have one : openings os + 1 - closings os = openings os - closings os + 1 := by omega
      simpa [role, one] using pending.opening role numbered (.nil pair)
    | closing =>
      simp only [role, reduceCtorEq, if_false, openings_nil, closings_nil] at whole
      have one : openings os - closings os = openings os - (closings os + 1) + 1 := by omega
      simpa [role] using close (one ▸ pending) role numbered

end Rising

theorem settled_iff_balanced {pair : PairId} {os : List Occurrence}
    (own : ∀ o ∈ os, o.pair = pair) : Settled pair os ↔ Balanced os := by
  constructor
  · exact fun settled => settled.balanced own
  · intro balanced
    have pending := Rising.of_prefixes own balanced.prefixes
    rw [balanced.total, Nat.sub_self] at pending
    cases pending with
    | settled settled => exact settled

end BracketColoring

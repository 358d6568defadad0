import Mathlib.Data.List.Forall2

/-!
# Steps that can fail

Steps are taken in order, and the first one that fails decides: a sequence of steps succeeds if all
of its steps do, and its error is the error of one of them.
-/

namespace BracketColoring

variable {ε α β : Type}

/-! ## One step after another -/

theorem bind_ok_iff {x : Except ε α} {rest : α → Except ε β} {b : β} :
    x >>= rest = .ok b ↔ ∃ a, x = .ok a ∧ rest a = .ok b := by
  cases x with
  | error e =>
    constructor
    · intro accepted
      cases accepted
    · rintro ⟨a, impossible, -⟩
      cases impossible
  | ok a =>
    constructor
    · intro accepted
      exact ⟨a, rfl, accepted⟩
    · rintro ⟨_, ⟨⟩, accepted⟩
      exact accepted

theorem bind_error_iff {x : Except ε α} {rest : α → Except ε β} {error : ε} :
    x >>= rest = .error error ↔ x = .error error ∨ ∃ a, x = .ok a ∧ rest a = .error error := by
  cases x with
  | error failed =>
    constructor
    · intro refused
      cases refused
      exact .inl rfl
    · rintro (⟨⟨⟩⟩ | ⟨a, impossible, -⟩)
      · rfl
      · cases impossible
  | ok a =>
    constructor
    · intro refused
      exact .inr ⟨a, rfl, refused⟩
    · rintro (impossible | ⟨_, ⟨⟩, refused⟩)
      · cases impossible
      · exact refused

/-- What two steps accept, the second accepts of the result of the first. -/
theorem exists_of_bind_ok {x : Except ε α} {rest : α → Except ε β} {b : β}
    (accepted : x >>= rest = .ok b) : ∃ a, x = .ok a ∧ rest a = .ok b :=
  bind_ok_iff.mp accepted

theorem check_ok_iff {refused : Prop} [Decidable refused] {e : ε} {rest : Unit → Except ε β} {b : β} :
    (if refused then throw e >>= rest else rest ()) = .ok b ↔ ¬ refused ∧ rest () = .ok b := by
  by_cases wrong : refused
  · rw [if_pos wrong]
    constructor
    · intro accepted
      cases accepted
    · rintro ⟨right, -⟩
      exact absurd wrong right
  · rw [if_neg wrong]
    exact (and_iff_right wrong).symm

theorem check_error_iff {refused : Prop} [Decidable refused] {e error : ε}
    {rest : Unit → Except ε β} :
    (if refused then throw e >>= rest else rest ()) = .error error ↔
      refused ∧ e = error ∨ ¬ refused ∧ rest () = .error error := by
  by_cases wrong : refused
  · rw [if_pos wrong]
    constructor
    · rintro ⟨⟩
      exact .inl ⟨wrong, rfl⟩
    · rintro (⟨-, rfl⟩ | ⟨right, -⟩)
      · rfl
      · exact absurd wrong right
  · rw [if_neg wrong]
    constructor
    · intro failed
      exact .inr ⟨wrong, failed⟩
    · rintro (⟨right, -⟩ | ⟨-, failed⟩)
      · exact absurd right wrong
      · exact failed

/-- What is accepted behind a check has passed it. -/
theorem passed_of_ok {refused : Prop} [Decidable refused] {e : ε} {rest : Unit → Except ε β} {b : β}
    (accepted : (if refused then throw e >>= rest else rest ()) = .ok b) :
    ¬ refused ∧ rest () = .ok b :=
  check_ok_iff.mp accepted

/-! ## One step for each item of a list -/

theorem getElem?_of_mapM_ok {f : α → Except ε β} {xs : List α} {ys : List β}
    (done : xs.mapM f = .ok ys) {i : Nat} {y : β} (present : ys[i]? = some y) :
    ∃ x, xs[i]? = some x ∧ f x = .ok y := by
  induction xs generalizing ys i with
  | nil =>
    cases done
    simp at present
  | cons x xs ih =>
    rw [List.mapM_cons] at done
    obtain ⟨z, head, done⟩ := exists_of_bind_ok done
    obtain ⟨zs, tail, done⟩ := exists_of_bind_ok done
    cases done
    cases i with
    | zero =>
      simp only [List.getElem?_cons_zero, Option.some.injEq] at present
      subst present
      exact ⟨x, rfl, head⟩
    | succ i => exact ih tail present

theorem exists_of_mapM_singleton_ok {f : α → Except ε β} {x : α} {ys : List β}
    (done : [x].mapM f = .ok ys) : ∃ y, f x = .ok y ∧ ys = [y] := by
  rw [List.mapM_cons] at done
  obtain ⟨y, head, done⟩ := exists_of_bind_ok done
  cases done
  exact ⟨y, head, rfl⟩

theorem mapM_ok_iff {f : α → Except ε β} {xs : List α} {ys : List β} :
    xs.mapM f = .ok ys ↔ List.Forall₂ (fun x y => f x = .ok y) xs ys := by
  induction xs generalizing ys with
  | nil =>
    rw [List.forall₂_nil_left_iff]
    constructor
    · rintro ⟨⟩
      rfl
    · rintro rfl
      rfl
  | cons x xs ih =>
    simp only [List.mapM_cons, bind_ok_iff, ih, List.forall₂_cons_left_iff]
    constructor
    · rintro ⟨y, head, ys', tail, ⟨⟩⟩
      exact ⟨y, ys', head, tail, rfl⟩
    · rintro ⟨y, ys', head, tail, rfl⟩
      exact ⟨y, head, ys', tail, rfl⟩

/-- Items that are read one by one, where what an item says does not depend on its place. -/
theorem mapM_zipIdx_ok_iff {f : α × Nat → Except ε β} {writes : α → β → Prop}
    (each : ∀ x i y, f (x, i) = .ok y ↔ writes x y) {xs : List α} {ys : List β} (first : Nat) :
    (xs.zipIdx first).mapM f = .ok ys ↔ List.Forall₂ writes xs ys := by
  rw [mapM_ok_iff]
  induction xs generalizing ys first with
  | nil => simp
  | cons x xs ih =>
    rw [List.zipIdx_cons, List.forall₂_cons_left_iff, List.forall₂_cons_left_iff]
    simp only [ih]
    exact exists₂_congr fun y _ => and_congr (each x first y) Iff.rfl

/-- A check of numbered items succeeds if and only if each item can be checked. -/
theorem exists_mapM_zipIdx_ok_iff {f : α × Nat → Except ε β} {sound : α → Prop}
    (each : ∀ x i, (∃ y, f (x, i) = .ok y) ↔ sound x) {xs : List α} (first : Nat) :
    (∃ ys, (xs.zipIdx first).mapM f = .ok ys) ↔ ∀ x ∈ xs, sound x := by
  simp only [mapM_ok_iff]
  induction xs generalizing first with
  | nil => simp
  | cons x xs ih =>
    simp only [List.zipIdx_cons, List.forall₂_cons_left_iff, List.forall_mem_cons, ← each x first,
      ← ih (first + 1)]
    constructor
    · rintro ⟨_, y, ys, head, tail, -⟩
      exact ⟨⟨y, head⟩, ys, tail⟩
    · rintro ⟨⟨y, head⟩, ys, tail⟩
      exact ⟨y :: ys, y, ys, head, tail, rfl⟩

section

variable {f : α → Except ε β} {error : ε}

theorem mapM_cons_eq_error_iff {x : α} {xs : List α} :
    (x :: xs).mapM f = .error error ↔
      f x = .error error ∨ (∃ b, f x = .ok b) ∧ xs.mapM f = .error error := by
  rw [List.mapM_cons]
  cases f x with
  | error failed => simp [bind, Except.bind]
  | ok b => cases xs.mapM f <;> simp [bind, Except.bind, pure, Except.pure]

/-- Going through a list fails with the first element that fails. -/
theorem mapM_eq_error_iff {xs : List α} :
    xs.mapM f = .error error ↔ ∃ earlier x later, xs = earlier ++ x :: later ∧
      (∀ y ∈ earlier, ∃ b, f y = .ok b) ∧ f x = .error error := by
  induction xs with
  | nil =>
    constructor
    · intro impossible
      cases impossible
    · intro ⟨earlier, x, later, split, _⟩
      simp at split
  | cons x rest ih =>
    rw [mapM_cons_eq_error_iff, ih]
    constructor
    · intro failed
      rcases failed with failure | ⟨passed, earlier, y, later, split, others, failure⟩
      · exact ⟨[], x, rest, rfl, by simp, failure⟩
      · refine ⟨x :: earlier, y, later, by rw [split, List.cons_append], ?_, failure⟩
        exact List.forall_mem_cons.mpr ⟨passed, others⟩
    · intro ⟨earlier, y, later, split, passed, failure⟩
      cases earlier with
      | nil =>
        cases split
        exact .inl failure
      | cons z earlier =>
        cases split
        rcases List.forall_mem_cons.mp passed with ⟨first, others⟩
        exact .inr ⟨first, earlier, y, later, rfl, others, failure⟩

end

/-- The error of numbered items is the error of an item under its number. -/
theorem exists_of_mapM_zipIdx_error {f : α × Nat → Except ε β} {error : ε} {xs : List α}
    (refused : xs.zipIdx.mapM f = .error error) :
    ∃ x i, xs[i]? = some x ∧ f (x, i) = .error error := by
  obtain ⟨earlier, ⟨x, i⟩, later, split, -, failure⟩ := mapM_eq_error_iff.mp refused
  have numbered : (x, i) ∈ xs.zipIdx := by
    rw [split]
    exact List.mem_append_right earlier List.mem_cons_self
  exact ⟨x, i, List.mem_zipIdx_iff_getElem?.mp numbered, failure⟩

end BracketColoring

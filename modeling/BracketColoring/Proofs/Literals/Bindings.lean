import BracketColoring.Proofs.Literals.Scan
import Mathlib.Data.List.Nodup
import Mathlib.Data.Prod.Lex
import Mathlib.Data.String.Basic

/-!
# The bindings of a list of pairs

Every binding of a table is one that some pair asked for. The bindings stand in the strict order of
the ranks of their literals; so no two are of the same literal.
-/

namespace BracketColoring.Literals

theorem place_perm (b : Binding) (bindings : List Binding) :
    (place b bindings).Perm (b :: bindings) := by
  induction bindings with
  | nil => exact .refl _
  | cons d rest ih =>
    unfold place
    split
    · exact .refl _
    · exact (ih.cons d).trans (.swap b d rest)

theorem mem_place {b c : Binding} {bindings : List Binding} :
    c ∈ place b bindings ↔ c = b ∨ c ∈ bindings :=
  (place_perm b bindings).mem_iff.trans List.mem_cons

theorem mem_register {t : Literals} {b c : Binding} (membership : c ∈ (t.register b).bindings) :
    c = b ∨ c ∈ t.bindings := by
  unfold register at membership
  split at membership
  · exact .inr membership
  · exact mem_place.mp membership

theorem mem_foldl_register {t : Literals} {asked : List Binding} {c : Binding}
    (membership : c ∈ (asked.foldl register t).bindings) : c ∈ asked ∨ c ∈ t.bindings := by
  induction asked generalizing t with
  | nil => exact .inr membership
  | cons b rest ih =>
    rcases ih membership with later | earlier
    · exact .inl (List.mem_cons_of_mem _ later)
    · rcases mem_register earlier with rfl | old
      · exact .inl List.mem_cons_self
      · exact .inr old

theorem exists_pair_of_mem_ofPairs {pairs : List PairDefinition} {b : Binding}
    (membership : b ∈ (ofPairs pairs).bindings) :
    ∃ d ∈ pairs, b = ⟨d.literal b.role, d.id, b.role⟩ := by
  rcases mem_foldl_register membership with asked | impossible
  · obtain ⟨d, inPairs, ofPair⟩ := List.mem_flatMap.mp asked
    refine ⟨d, inPairs, ?_⟩
    simp only [Literals.ofPair, List.mem_cons, List.not_mem_nil, or_false] at ofPair
    rcases ofPair with rfl | rfl <;> rfl
  · cases impossible

/-! ## The order of the bindings -/

/-- What literals are ordered by: the more bytes the lower, and then the text. -/
def rank (literal : String) : ℕᵒᵈ ×ₗ String :=
  toLex (OrderDual.toDual literal.utf8ByteSize, literal)

theorem rank_lt_rank {a b : String} :
    rank a < rank b ↔
      b.utf8ByteSize < a.utf8ByteSize ∨ a.utf8ByteSize = b.utf8ByteSize ∧ a < b := by
  simp [rank, Prod.Lex.toLex_lt_toLex]

theorem rank_injective : Function.Injective rank := fun _ _ same =>
  (Prod.mk.inj (toLex.injective same)).2

theorem precedes_iff {a b : String} : precedes a b = true ↔ rank a < rank b := by
  simp [precedes, rank_lt_rank]

/-- The literal of each binding ranks before those of all later ones. -/
def Sorted (t : Literals) : Prop :=
  t.bindings.Pairwise fun a b => rank a.literal < rank b.literal

theorem sorted_place {b : Binding} {bindings : List Binding} (sorted : Sorted ⟨bindings⟩)
    (unbound : ∀ old ∈ bindings, old.literal ≠ b.literal) : Sorted ⟨place b bindings⟩ := by
  induction bindings with
  | nil => exact List.pairwise_singleton _ b
  | cons d rest ih =>
    rcases List.pairwise_cons.mp sorted with ⟨first, others⟩
    rcases List.forall_mem_cons.mp unbound with ⟨apart, unbound⟩
    unfold place
    split
    · next before =>
      have before := precedes_iff.mp before
      refine List.pairwise_cons.mpr ⟨?_, sorted⟩
      intro c member
      rcases List.mem_cons.mp member with rfl | later
      · exact before
      · exact before.trans (first c later)
    · next behind =>
      have before : rank d.literal < rank b.literal :=
        lt_of_le_of_ne (not_lt.mp (mt precedes_iff.mpr behind)) (rank_injective.ne apart)
      refine List.pairwise_cons.mpr ⟨?_, ih others unbound⟩
      intro c member
      rcases mem_place.mp member with rfl | old
      · exact before
      · exact first c old

theorem Sorted.register {t : Literals} (sorted : t.Sorted) (b : Binding) :
    (t.register b).Sorted := by
  unfold Literals.register
  split
  · exact sorted
  · next unbound =>
    refine sorted_place sorted fun old member same => unbound ?_
    exact List.any_eq_true.mpr ⟨old, member, beq_iff_eq.mpr same⟩

theorem sorted_ofPairs (pairs : List PairDefinition) : (ofPairs pairs).Sorted := by
  unfold ofPairs
  suffices all : ∀ (asked : List Binding) (t : Literals), t.Sorted →
      (asked.foldl Literals.register t).Sorted from all _ ⟨[]⟩ .nil
  intro asked
  induction asked with
  | nil => exact fun t sorted => sorted
  | cons b rest ih => exact fun t sorted => ih _ (sorted.register b)

/-- No two bindings are of the same literal. -/
def Distinct (t : Literals) : Prop := (t.bindings.map (·.literal)).Nodup

theorem distinct_ofPairs (pairs : List PairDefinition) : (ofPairs pairs).Distinct :=
  List.pairwise_map.mpr ((sorted_ofPairs pairs).imp fun before same =>
    before.ne (congrArg rank same))

/-- A literal stands for what its binding says. -/
theorem Distinct.resolve? {t : Literals} (distinct : t.Distinct) {b : Binding}
    (membership : b ∈ t.bindings) : t.resolve? b.literal = some (b.pair, b.role) := by
  unfold Literals.resolve?
  cases found : t.bindings.find? fun old => old.literal == b.literal with
  | none =>
    have := List.find?_eq_none.mp found b membership
    simp at this
  | some old =>
    have same : old.literal = b.literal := by simpa using List.find?_some found
    have equal : old = b :=
      List.inj_on_of_nodup_map distinct (List.mem_of_find?_eq_some found) membership same
    rw [equal]
    rfl

end BracketColoring.Literals

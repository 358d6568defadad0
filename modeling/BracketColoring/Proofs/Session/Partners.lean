import BracketColoring.Proofs.Session.Shown
import Mathlib.Data.List.Pairwise

/-!
# From a bracket to its partner

A pair is looked up by the range of one of its brackets, and the first pair that has the range is
taken. No two brackets of an index have one range, so there is only one such pair, and going from a
bracket to the other end of its pair and on from there leads back (`partners_found`).
-/

namespace BracketColoring

namespace BracketPair

/-- One of the brackets of the pair is at the range. -/
def EndsAt (p : BracketPair) (r : Range) : Prop := p.opening = r ∨ p.closing = r

/-- The bracket at the other end. -/
def other (p : BracketPair) (r : Range) : Range := if p.opening = r then p.closing else p.opening

end BracketPair

namespace PairIndex

/-- The bracket that a bracket is matched with. -/
def partner? (x : PairIndex) (r : Range) : Option Range := (x.matching? r).map (·.other r)

/-- A range is looked up as the end of a pair if and only if it is one, and then of that pair only;
lone brackets have no pair. Pairs and lone brackets are listed in the order of their places. -/
structure FindsPartners (x : PairIndex) : Prop where
  matching_iff : ∀ r p, x.matching? r = some p ↔ p ∈ x.pairs ∧ p.EndsAt r
  unique : ∀ r, ∀ p ∈ x.pairs, ∀ q ∈ x.pairs, p.EndsAt r → q.EndsAt r → p = q
  ends : ∀ p ∈ x.pairs, x.matching? p.opening = some p ∧ x.matching? p.closing = some p
  alone : ∀ b ∈ x.orphans, x.matching? b.range = none
  involution : ∀ r r', x.partner? r = some r' → r' ≠ r ∧ x.partner? r' = some r
  pairs_increase : x.pairs.Pairwise fun p q => p.opening < q.opening
  orphans_increase : x.orphans.Pairwise fun b b' => b.range < b'.range

section

variable {x : PairIndex} {p q : BracketPair} {r : Range}

theorem endsAt_of_matching? (found : x.matching? r = some p) : p ∈ x.pairs ∧ p.EndsAt r := by
  have hit := List.find?_some found
  rw [Bool.or_eq_true, decide_eq_true_eq, decide_eq_true_eq] at hit
  exact ⟨List.mem_of_find?_eq_some found, hit⟩

theorem exists_matching? (listed : p ∈ x.pairs) (ends : p.EndsAt r) :
    ∃ q, x.matching? r = some q := by
  refine Option.isSome_iff_exists.mp (List.find?_isSome.mpr ⟨p, listed, ?_⟩)
  rwa [Bool.or_eq_true, decide_eq_true_eq, decide_eq_true_eq]

variable (distinct : x.ranges.Nodup)

include distinct

theorem opening_ne_closing (listed : p ∈ x.pairs) : p.opening ≠ p.closing := by
  have matched := (List.nodup_append.mp distinct).1
  have ends := (List.nodup_flatMap.mp matched).1 p listed
  simpa using ends

theorem eq_of_endsAt (listed : p ∈ x.pairs) (listed' : q ∈ x.pairs) (ends : p.EndsAt r)
    (ends' : q.EndsAt r) : p = q := by
  by_contra other
  have matched := (List.nodup_append.mp distinct).1
  have symmetric : Std.Symm (Function.onFun List.Disjoint
      fun p : BracketPair => [p.opening, p.closing]) := ⟨fun _ _ => List.disjoint_symm⟩
  have apart := (List.nodup_flatMap.mp matched).2.forall listed listed' other
  have inside : ∀ {p : BracketPair}, p.EndsAt r → r ∈ [p.opening, p.closing] := by
    rintro p (rfl | rfl)
    · exact List.mem_cons_self
    · exact List.mem_cons_of_mem _ List.mem_cons_self
  exact apart (inside ends) (inside ends')

theorem matching?_eq_some_iff : x.matching? r = some p ↔ p ∈ x.pairs ∧ p.EndsAt r := by
  constructor
  · exact endsAt_of_matching?
  · rintro ⟨listed, ends⟩
    obtain ⟨q, found⟩ := exists_matching? listed ends
    obtain ⟨listed', ends'⟩ := endsAt_of_matching? found
    rwa [eq_of_endsAt distinct listed listed' ends ends']

theorem matching?_orphan {b : OrphanBracket} (listed : b ∈ x.orphans) :
    x.matching? b.range = none := by
  refine Option.eq_none_iff_forall_not_mem.mpr fun p found => ?_
  obtain ⟨inPairs, ends⟩ := endsAt_of_matching? found
  have apart := (List.nodup_append.mp distinct).2.2
  have matched : b.range ∈ x.pairs.flatMap fun p => [p.opening, p.closing] := by
    refine List.mem_flatMap.mpr ⟨p, inPairs, ?_⟩
    rcases ends with same | same
    · simp [same]
    · simp [same]
  exact apart b.range matched b.range (List.mem_map_of_mem listed) rfl

/-- The partner of an opening is the closing of its pair, and the other way round. -/
theorem partner?_opening (listed : p ∈ x.pairs) : x.partner? p.opening = some p.closing := by
  rw [partner?, (matching?_eq_some_iff distinct).mpr ⟨listed, .inl rfl⟩]
  simp [BracketPair.other]

theorem partner?_closing (listed : p ∈ x.pairs) : x.partner? p.closing = some p.opening := by
  rw [partner?, (matching?_eq_some_iff distinct).mpr ⟨listed, .inr rfl⟩]
  simp [BracketPair.other, opening_ne_closing distinct listed]

theorem partner?_involutive {r' : Range} (found : x.partner? r = some r') :
    r' ≠ r ∧ x.partner? r' = some r := by
  obtain ⟨p, matching, -⟩ := Option.map_eq_some_iff.mp found
  obtain ⟨listed, rfl | rfl⟩ := endsAt_of_matching? matching
  · cases found.symm.trans (partner?_opening distinct listed)
    exact ⟨(opening_ne_closing distinct listed).symm, partner?_closing distinct listed⟩
  · cases found.symm.trans (partner?_closing distinct listed)
    exact ⟨opening_ne_closing distinct listed, partner?_opening distinct listed⟩

end

/-- Sorting is all that the lookups need besides distinct ranges. -/
theorem findsPartners_inOrder {pairs : List BracketPair} {orphans : List OrphanBracket}
    (distinct : (inOrder pairs orphans).ranges.Nodup) : (inOrder pairs orphans).FindsPartners := by
  obtain ⟨matched, alone, -⟩ := List.nodup_append.mp distinct
  constructor
  case matching_iff => exact fun _ _ => matching?_eq_some_iff distinct
  case unique => exact fun _ _ listed _ listed' => eq_of_endsAt distinct listed listed'
  case ends =>
    intro p listed
    exact ⟨(matching?_eq_some_iff distinct).mpr ⟨listed, .inl rfl⟩,
      (matching?_eq_some_iff distinct).mpr ⟨listed, .inr rfl⟩⟩
  case alone => exact fun _ listed => matching?_orphan distinct listed
  case involution => exact fun _ _ found => partner?_involutive distinct found
  case pairs_increase =>
    have sorted : (inOrder pairs orphans).pairs.Pairwise fun p q => p.opening ≤ q.opening :=
      Ordered.pairwise_sort_key BracketPair.opening pairs
    refine (sorted.and (List.nodup_flatMap.mp matched).2).imp ?_
    rintro p q ⟨ordered, apart⟩
    refine lt_of_le_of_ne ordered fun same => ?_
    exact apart List.mem_cons_self (same ▸ List.mem_cons_self)
  case orphans_increase =>
    have sorted : (inOrder pairs orphans).orphans.Pairwise fun b b' => b.range ≤ b'.range :=
      Ordered.pairwise_sort_key OrphanBracket.range orphans
    exact (sorted.and (List.pairwise_map.mp alone)).imp fun both => lt_of_le_of_ne both.1 both.2

end PairIndex

namespace Session

variable {τ : Type} {s : Session τ}

theorem Shown.findsPartners (shown : s.Shown) : s.pairs.FindsPartners := by
  obtain ⟨cache, ⟨oss, rfl, each⟩, -, pairs⟩ := shown.drawn
  have classifies := LineCache.classifies (LineCache.known_flatten shown.valid each)
    (LineCache.ordered_flatten shown.valid each)
  rw [pairs]
  exact PairIndex.findsPartners_inOrder classifies.distinct

variable [Tokenizer τ]

/-- In every state of a session, so after every pass that was rendered, a bracket is looked up in the
pair index as what it is: the end of exactly one pair, of which it leads to the other end, or a lone
bracket. -/
theorem partners_found {settings : Settings} {tokenizer : τ} {text : String}
    (valid : settings.Valid) (reached : Reaches Checked (create settings tokenizer text) s) :
    s.pairs.FindsPartners :=
  (Shown.of_reaches valid reached).findsPartners

/-- Over two lines, a pair and two lone brackets that cross it. -/
theorem partners_found_crossed :
    let crossed : Session (Scripted bare) := create .classic ⟨[]⟩ "([\n)]"
    let s' := (crossed.apply .refresh).value.2
    let opening : Range := ⟨⟨0, 1⟩, ⟨0, 2⟩⟩
    let closing : Range := ⟨⟨1, 1⟩, ⟨1, 2⟩⟩
    s'.pairs.FindsPartners ∧ s'.pairs.partner? opening = some closing ∧
      s'.pairs.partner? closing = some opening ∧ s'.pairs.matching? ⟨⟨0, 0⟩, ⟨0, 1⟩⟩ = none := by
  intro crossed s' opening closing
  have reached : Reaches Checked crossed s' := .step .refresh .start trivial
  have finds := partners_found Settings.valid_classic reached
  have whole : s' = _ := congrArg Prod.snd (apply_refresh_ok (s := crossed) rfl)
  have forward : s'.pairs.partner? opening = some closing := by
    rw [whole, Token.occurrences_eq_mapLeaves]
    decide
  have alone : s'.pairs.orphans.map (·.range) = [⟨⟨0, 0⟩, ⟨0, 1⟩⟩, ⟨⟨1, 0⟩, ⟨1, 1⟩⟩] := by
    rw [whole, Token.occurrences_eq_mapLeaves]
    decide
  refine ⟨finds, forward, (finds.involution _ _ forward).2, ?_⟩
  obtain ⟨b, listed, range⟩ := List.mem_map.mp (alone ▸ List.mem_cons_self)
  rw [← range]
  exact finds.alone b listed

end Session

end BracketColoring

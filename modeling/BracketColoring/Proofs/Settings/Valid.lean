import BracketColoring.Proofs.Literals.Bindings
import BracketColoring.Proofs.Result.Steps
import BracketColoring.Settings.Document

/-!
# Settings that pass the checks

`Settings.Valid` is what every way to make settings guarantees: there is a pair, the pairs are
numbered in order, their literals are not empty and differ, colors have names, and in consecutive
mode all pairs have the same colors.
-/

namespace BracketColoring

structure PairDefinition.Valid (d : PairDefinition) : Prop where
  opening : d.opening ≠ ""
  closing : d.closing ≠ ""
  distinct : d.opening ≠ d.closing
  named : ∀ c ∈ d.colors, c.name ≠ ""

structure Settings.Valid (s : Settings) : Prop where
  inhabited : s.pairs ≠ []
  ids : ∀ (i : Nat) (d : PairDefinition), s.pairs[i]? = some d → d.id = i
  pairs : ∀ d ∈ s.pairs, d.Valid
  shared : s.mode = .consecutive →
    ∀ d ∈ s.pairs, ∀ d' ∈ s.pairs, d.palette = d'.palette ∧ d.orphan = d'.orphan

/-- A pair that the settings have, at the place that its id says. -/
def Settings.Knows (s : Settings) (id : PairId) : Prop := ∃ d, s.pair? id = some d ∧ d.id = id

instance (s : Settings) (id : PairId) : Decidable (s.Knows id) :=
  decidable_of_iff ((s.pair? id).any (fun d => d.id = id) = true) (by
    simp [Settings.Knows, Option.any_eq_true])

theorem Settings.Knows.id_eq {s : Settings} {id : PairId} (known : s.Knows id) {d : PairDefinition}
    (pair : s.pair? id = some d) : d.id = id := by
  obtain ⟨d', present, numbered⟩ := known
  cases pair.symm.trans present
  exact numbered

namespace Settings.Valid

variable {s : Settings}

theorem pair?_id (valid : s.Valid) {d : PairDefinition} (membership : d ∈ s.pairs) :
    s.pair? d.id = some d := by
  obtain ⟨i, present⟩ := List.getElem?_of_mem membership
  rw [Settings.pair?, valid.ids i d present, present]

/-- Every literal that is looked for belongs to the pair that its binding names. -/
theorem pair_of_binding (valid : s.Valid) {b : Binding} (membership : b ∈ s.literals.bindings) :
    ∃ d, s.pair? b.pair = some d ∧ d ∈ s.pairs ∧ d.id = b.pair ∧ b.literal = d.literal b.role := by
  obtain ⟨d, inPairs, binding⟩ := Literals.exists_pair_of_mem_ofPairs membership
  have pair : b.pair = d.id := congrArg Binding.pair binding
  have literal : b.literal = d.literal b.role := congrArg Binding.literal binding
  exact ⟨d, pair ▸ valid.pair?_id inPairs, inPairs, pair.symm, literal⟩

theorem knows_of_binding (valid : s.Valid) {b : Binding} (membership : b ∈ s.literals.bindings) :
    s.Knows b.pair := by
  obtain ⟨d, present, -, numbered, -⟩ := valid.pair_of_binding membership
  exact ⟨d, present, numbered⟩

theorem literals_nonEmpty (valid : s.Valid) : s.literals.NonEmpty := by
  intro b membership
  obtain ⟨d, -, inPairs, -, literal⟩ := valid.pair_of_binding membership
  rw [literal]
  cases b.role with
  | opening => exact fun empty => (valid.pairs d inPairs).opening (String.toList_eq_nil_iff.mp empty)
  | closing => exact fun empty => (valid.pairs d inPairs).closing (String.toList_eq_nil_iff.mp empty)

end Settings.Valid

/-! ## Every constructor makes valid settings -/

theorem Palette.toList_of_ofList? {colors : List Color} {p : Palette}
    (made : Palette.ofList? colors = some p) : p.toList = colors := by
  cases colors with
  | nil => cases made
  | cons c rest =>
    cases made
    rfl

theorem Palette.toList_injective {p q : Palette} (same : p.toList = q.toList) : p = q := by
  cases p
  cases q
  simp_all [Palette.toList]

theorem Palette.exists_ofList? {colors : List Color} (filled : colors ≠ []) :
    ∃ p, ofList? colors = some p := by
  cases colors with
  | nil => exact absurd rfl filled
  | cons c rest => exact ⟨⟨c, rest⟩, rfl⟩

theorem checkColors_ok_iff {place : FieldPath} {colors : List Color} :
    checkColors place colors = .ok () ↔ ∀ c ∈ colors, c.name ≠ "" := by
  unfold checkColors
  cases found : colors.findIdx? (fun c => c.name.isEmpty) with
  | none => simpa [List.findIdx?_eq_none_iff] using found
  | some i =>
    have unnamed : ∃ c ∈ colors, c.name = "" := by
      simpa using List.findIdx?_isSome.symm.trans (congrArg Option.isSome found)
    simpa using unnamed

/-- A specification that passes the checks of a pair. -/
structure PairSpec.Sound (spec : PairSpec) : Prop where
  opening : spec.opening ≠ ""
  closing : spec.closing ≠ ""
  distinct : spec.opening ≠ spec.closing
  palette : spec.palette ≠ []
  named : ∀ c ∈ spec.palette, c.name ≠ ""
  orphan : spec.orphan.name ≠ ""

namespace PairDefinition

/-- What a checked pair takes over from its specification. -/
structure Follows (d : PairDefinition) (spec : PairSpec) : Prop where
  opening : d.opening = spec.opening
  closing : d.closing = spec.closing
  palette : d.palette.toList = spec.palette
  orphan : d.orphan = spec.orphan

theorem Follows.unique {d d' : PairDefinition} {spec : PairSpec} (follows : d.Follows spec)
    (follows' : d'.Follows spec) (numbered : d.id = d'.id) : d = d' := by
  have palette := Palette.toList_injective (follows.palette.trans follows'.palette.symm)
  have opening := follows.opening.trans follows'.opening.symm
  have closing := follows.closing.trans follows'.closing.symm
  have orphan := follows.orphan.trans follows'.orphan.symm
  cases d
  cases d'
  simp_all

theorem Follows.valid {d : PairDefinition} {spec : PairSpec} (follows : d.Follows spec)
    (sound : spec.Sound) : d.Valid where
  opening := follows.opening ▸ sound.opening
  closing := follows.closing ▸ sound.closing
  distinct := by
    rw [follows.opening, follows.closing]
    exact sound.distinct
  named c membership := by
    rcases List.mem_append.mp membership with inPalette | isOrphan
    · exact sound.named c (follows.palette ▸ inPalette)
    · rw [List.mem_singleton.mp isOrphan, follows.orphan]
      exact sound.orphan

/-- What is built of a specification. The place, which errors name, makes no difference. -/
theorem ofSpec_ok_iff {place : FieldPath} {id : PairId} {spec : PairSpec} {d : PairDefinition} :
    ofSpec place id spec = .ok d ↔ spec.Sound ∧ d.id = id ∧ d.Follows spec := by
  unfold ofSpec
  dsimp only
  constructor
  · intro accepted
    obtain ⟨opening, accepted⟩ := passed_of_ok accepted
    obtain ⟨closing, accepted⟩ := passed_of_ok accepted
    obtain ⟨distinct, accepted⟩ := passed_of_ok accepted
    cases made : Palette.ofList? spec.palette with
    | none =>
      rw [made] at accepted
      cases accepted
    | some palette =>
      rw [made] at accepted
      obtain ⟨⟨⟩, named, accepted⟩ := exists_of_bind_ok accepted
      obtain ⟨orphan, accepted⟩ := passed_of_ok accepted
      cases accepted
      refine ⟨⟨by simpa using opening, by simpa using closing, distinct, ?_,
        checkColors_ok_iff.mp named, by simpa using orphan⟩, rfl, rfl, rfl,
        Palette.toList_of_ofList? made, rfl⟩
      intro empty
      rw [empty] at made
      cases made
  · rintro ⟨sound, rfl, follows⟩
    obtain ⟨palette, made⟩ := Palette.exists_ofList? sound.palette
    have built : PairDefinition.Follows ⟨d.id, spec.opening, spec.closing, palette, spec.orphan⟩
        spec := ⟨rfl, rfl, Palette.toList_of_ofList? made, rfl⟩
    refine check_ok_iff.mpr ⟨by simpa using sound.opening, ?_⟩
    refine check_ok_iff.mpr ⟨by simpa using sound.closing, ?_⟩
    refine check_ok_iff.mpr ⟨sound.distinct, ?_⟩
    rw [made]
    refine bind_ok_iff.mpr ⟨(), checkColors_ok_iff.mpr sound.named, ?_⟩
    refine check_ok_iff.mpr ⟨by simpa using sound.orphan, ?_⟩
    exact congrArg Except.ok (built.unique follows rfl)

theorem ofSpec_ok {place : FieldPath} {id : PairId} {spec : PairSpec} {d : PairDefinition}
    (accepted : ofSpec place id spec = .ok d) : d.id = id ∧ d.Valid ∧ d.Follows spec := by
  obtain ⟨sound, numbered, follows⟩ := ofSpec_ok_iff.mp accepted
  exact ⟨numbered, follows.valid sound, follows⟩

end PairDefinition

namespace Settings

/-- Pairs that were checked in order, with the specifications that they come from. -/
def Checked (specs : List PairSpec) (pairs : List PairDefinition) : Prop :=
  ∀ (i : Nat) (d : PairDefinition), pairs[i]? = some d →
    ∃ spec, specs[i]? = some spec ∧ d.id = i ∧ d.Valid ∧ d.Follows spec

theorem valid_ofDefinitions {mode : ColorMode} {place : FieldPath} {specs : List PairSpec}
    {pairs : List PairDefinition} {s : Settings} (checked : Checked specs pairs)
    (alike : mode = .consecutive → ∀ a ∈ specs, ∀ b ∈ specs,
      a.palette = b.palette ∧ a.orphan = b.orphan)
    (accepted : ofDefinitions mode place pairs = .ok s) : s.Valid := by
  unfold ofDefinitions at accepted
  split at accepted
  · cases accepted
  · next inhabited =>
    cases accepted
    refine ⟨by simpa using inhabited, ?_, ?_, ?_⟩
    · intro i d present
      obtain ⟨spec, -, numbered, -⟩ := checked i d present
      exact numbered
    · intro d membership
      obtain ⟨i, present⟩ := List.getElem?_of_mem membership
      obtain ⟨spec, -, -, valid, -⟩ := checked i d present
      exact valid
    · intro consecutive d membership d' membership'
      obtain ⟨i, present⟩ := List.getElem?_of_mem membership
      obtain ⟨i', present'⟩ := List.getElem?_of_mem membership'
      obtain ⟨spec, given, -, -, follows⟩ := checked i d present
      obtain ⟨spec', given', -, -, follows'⟩ := checked i' d' present'
      obtain ⟨palette, orphan⟩ := alike consecutive spec (List.mem_of_getElem? given) spec'
        (List.mem_of_getElem? given')
      refine ⟨Palette.toList_injective ?_, ?_⟩
      · rw [follows.palette, follows'.palette, palette]
      · rw [follows.orphan, follows'.orphan, orphan]

theorem checked_of_mapM (place : FieldPath) {specs : List PairSpec} {pairs : List PairDefinition}
    {check : PairSpec × Nat → Except SettingsError PairDefinition}
    (checks : ∀ spec i d, check (spec, i) = .ok d →
      PairDefinition.ofSpec (place.index i) i spec = .ok d)
    (done : specs.zipIdx.mapM check = .ok pairs) : Checked specs pairs := by
  intro i d present
  obtain ⟨⟨spec, j⟩, given, accepted⟩ := getElem?_of_mapM_ok done present
  rw [List.getElem?_zipIdx] at given
  obtain ⟨spec', given', equal⟩ := Option.map_eq_some_iff.mp given
  cases equal
  obtain ⟨numbered, valid, follows⟩ := PairDefinition.ofSpec_ok (checks _ _ _ accepted)
  exact ⟨spec, given', by rw [numbered, Nat.zero_add], valid, follows⟩

theorem valid_ofSpecs {mode : ColorMode} {place : FieldPath} {specs : List PairSpec} {s : Settings}
    (alike : mode = .consecutive → ∀ a ∈ specs, ∀ b ∈ specs,
      a.palette = b.palette ∧ a.orphan = b.orphan)
    (accepted : ofSpecs mode place specs = .ok s) : s.Valid := by
  obtain ⟨pairs, done, accepted⟩ := exists_of_bind_ok accepted
  exact valid_ofDefinitions (checked_of_mapM place (fun _ _ _ checked => checked) done) alike
    accepted

theorem valid_consecutive {pairs : List (String × String)} {palette : List Color} {orphan : Color}
    {s : Settings} (accepted : consecutive pairs palette orphan = .ok s) : s.Valid := by
  obtain ⟨⟨⟩, -, accepted⟩ := exists_of_bind_ok accepted
  obtain ⟨-, accepted⟩ := passed_of_ok accepted
  refine valid_ofSpecs ?_ accepted
  intro _ a inA b inB
  obtain ⟨_, -, rfl⟩ := List.mem_map.mp inA
  obtain ⟨_, -, rfl⟩ := List.mem_map.mp inB
  exact ⟨rfl, rfl⟩

/-- The settings of a document that leaves everything out. -/
def classic : Settings where
  mode := .consecutive
  pairs :=
    let palette : Palette := ⟨⟨"Gold"⟩, [⟨"Orchid"⟩, ⟨"LightSkyBlue"⟩]⟩
    [⟨0, "(", ")", palette, ⟨"Red"⟩⟩, ⟨1, "[", "]", palette, ⟨"Red"⟩⟩,
      ⟨2, "\x7b", "\x7d", palette, ⟨"Red"⟩⟩]

theorem ofDocument_default : ofDocument {} = .ok classic := rfl

theorem valid_independent {specs : List PairSpec} {s : Settings}
    (accepted : independent specs = .ok s) : s.Valid := by
  obtain ⟨pairs, done, accepted⟩ := exists_of_bind_ok accepted
  refine valid_ofDefinitions (checked_of_mapM ⟨"pairs", []⟩ ?_ done)
    (fun consecutive => by cases consecutive) accepted
  intro spec i d checked
  obtain ⟨⟨⟩, -, checked⟩ := exists_of_bind_ok checked
  exact checked

/-- The flags, the delay and the excluded languages do not matter. -/
theorem Valid.modify {s s' : Settings} (valid : s.Valid) (mode : s'.mode = s.mode)
    (pairs : s'.pairs = s.pairs) : s'.Valid where
  inhabited := pairs ▸ valid.inhabited
  ids := pairs ▸ valid.ids
  pairs := pairs ▸ valid.pairs
  shared := mode ▸ pairs ▸ valid.shared

theorem alike_of_readConsecutive {value : Json} {specs : List PairSpec}
    (read : Document.readConsecutive value = .ok specs) :
    ∀ a ∈ specs, ∀ b ∈ specs, a.palette = b.palette ∧ a.orphan = b.orphan := by
  unfold Document.readConsecutive at read
  obtain ⟨items, -, read⟩ := exists_of_bind_ok read
  split at read
  · obtain ⟨orphan, -, read⟩ := exists_of_bind_ok read
    obtain ⟨palette, -, read⟩ := exists_of_bind_ok read
    have uniform : ∀ a ∈ specs, a.palette = palette ∧ a.orphan = orphan := by
      intro a membership
      obtain ⟨i, present⟩ := List.getElem?_of_mem membership
      obtain ⟨item, -, made⟩ := getElem?_of_mapM_ok read present
      obtain ⟨pair, -, made⟩ := exists_of_bind_ok made
      cases made
      exact ⟨rfl, rfl⟩
    intro a inA b inB
    exact ⟨(uniform a inA).1.trans (uniform b inB).1.symm,
      (uniform a inA).2.trans (uniform b inB).2.symm⟩
  · cases read

theorem valid_ofDocument {d : Document} {s : Settings} (accepted : ofDocument d = .ok s) :
    s.Valid := by
  obtain ⟨consecutive, read, accepted⟩ := exists_of_bind_ok accepted
  obtain ⟨independent, -, accepted⟩ := exists_of_bind_ok accepted
  cases mode : d.mode with
  | consecutive =>
    rw [mode] at accepted
    obtain ⟨settings, made, accepted⟩ := exists_of_bind_ok accepted
    cases accepted
    exact (valid_ofSpecs (fun _ => alike_of_readConsecutive read) made).modify rfl rfl
  | independent =>
    rw [mode] at accepted
    obtain ⟨settings, made, accepted⟩ := exists_of_bind_ok accepted
    cases accepted
    exact (valid_ofSpecs (fun wrong => by cases wrong) made).modify rfl rfl

theorem valid_classic : classic.Valid := valid_ofDocument ofDocument_default

/-- Settings in which only round brackets are colored. -/
def round : Settings where
  mode := .consecutive
  pairs := [⟨0, "(", ")", ⟨⟨"Blue"⟩, []⟩, ⟨"Red"⟩⟩]

theorem consecutive_round : consecutive [("(", ")")] [⟨"Blue"⟩] ⟨"Red"⟩ = .ok round := rfl

theorem valid_round : round.Valid := valid_consecutive consecutive_round

theorem valid_ofJson {value : Json} {s : Settings} (accepted : ofJson value = .ok s) :
    s.Valid := by
  unfold ofJson at accepted
  split at accepted
  · exact valid_ofDocument accepted
  · cases accepted

theorem valid_ofText {text : String} {s : Settings} (accepted : ofText text = .ok s) :
    s.Valid := by
  unfold ofText at accepted
  split at accepted
  · exact valid_ofJson accepted
  · cases accepted

/-- Settings that some constructor has accepted, with the flags, the delay and the excluded
languages changed at will. -/
inductive Accepted : Settings → Prop
  | consecutive {pairs : List (String × String)} {palette : List Color} {orphan : Color}
      {s : Settings} : Settings.consecutive pairs palette orphan = .ok s → Accepted s
  | independent {specs : List PairSpec} {s : Settings} :
      Settings.independent specs = .ok s → Accepted s
  | ofJson {value : Json} {s : Settings} : Settings.ofJson value = .ok s → Accepted s
  | ofText {text : String} {s : Settings} : Settings.ofText text = .ok s → Accepted s
  | modified {s : Settings} (uniqueOpening cycleOpenings : Bool) (debounce : Nat)
      (excluded : List String) : Accepted s →
      Accepted { s with uniqueOpening, cycleOpenings, debounce, excluded }

theorem Accepted.valid {s : Settings} (accepted : s.Accepted) : s.Valid := by
  induction accepted with
  | consecutive accepted => exact valid_consecutive accepted
  | independent accepted => exact valid_independent accepted
  | ofJson accepted => exact valid_ofJson accepted
  | ofText accepted => exact valid_ofText accepted
  | modified _ _ _ _ _ valid => exact valid.modify rfl rfl

end Settings

end BracketColoring

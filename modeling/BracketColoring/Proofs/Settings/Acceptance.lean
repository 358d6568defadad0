import BracketColoring.Proofs.Settings.Grammar
import BracketColoring.Proofs.Settings.Places

/-!
# Which settings documents are accepted

A document is accepted if and only if both of its lists are written as the grammar says and the
literals of the list that its mode selects can be told apart; its settings are then those that a
program gets from the decoded parts (`ofJson_ok_iff`). The literals of the other list are not looked
at, so the mode can make a difference (`modes_accept_alike_iff`).
-/

namespace BracketColoring

/-- There is a pair, and in each pair the literals are not empty and differ. -/
def Usable (literals : List (String × String)) : Prop :=
  literals ≠ [] ∧ ∀ pair ∈ literals, pair.1 ≠ "" ∧ pair.2 ≠ "" ∧ pair.1 ≠ pair.2

instance (literals : List (String × String)) : Decidable (Usable literals) :=
  inferInstanceAs (Decidable (_ ∧ _))

namespace Decoded

/-- The literals of the list that a mode selects. -/
def literals (parts : Decoded) : ColorMode → List (String × String)
  | .consecutive => parts.pairs
  | .independent => parts.specs.map fun spec => (spec.opening, spec.closing)

/-- The list that a mode selects, as specifications. -/
def chosen (parts : Decoded) : ColorMode → List PairSpec
  | .consecutive => parts.pairs.map (shareColors parts.palette parts.orphan)
  | .independent => parts.specs

theorem literals_eq (parts : Decoded) (mode : ColorMode) :
    parts.literals mode = (parts.chosen mode).map fun spec => (spec.opening, spec.closing) := by
  cases mode with
  | consecutive => simp [literals, chosen, shareColors, Function.comp_def]
  | independent => rfl

/-- The settings that a program gets when it hands over the parts. -/
def settings (parts : Decoded) : ColorMode → Except SettingsError Settings
  | .consecutive => Settings.consecutive parts.pairs parts.palette parts.orphan
  | .independent => Settings.independent parts.specs

end Decoded

/-- The flags, the delay and the excluded languages of a document, put on settings. -/
def Document.modify (d : Document) (s : Settings) : Settings :=
  { s with
    uniqueOpening := d.uniqueOpening
    cycleOpenings := d.cycleOpenings
    debounce := d.debounce
    excluded := d.excluded }

/-! ## What is built -/

theorem WritesPalette.named {value : Json} {palette : List Color}
    (written : WritesPalette value palette) : palette ≠ [] ∧ ∀ c ∈ palette, c.name ≠ "" := by
  obtain ⟨items, -, filled, each⟩ := written
  constructor
  · rintro rfl
    exact filled (List.forall₂_nil_right_iff.mp each)
  · intro c membership
    obtain ⟨i, inside, rfl⟩ := List.getElem_of_mem membership
    exact (each.get (each.length_eq ▸ inside) inside).2

namespace PairDefinition

variable {place : FieldPath} {id : PairId} {spec : PairSpec}

theorem exists_ofSpec_iff : (∃ d, ofSpec place id spec = .ok d) ↔ spec.Sound := by
  simp only [ofSpec_ok_iff]
  constructor
  · rintro ⟨d, sound, -⟩
    exact sound
  · intro sound
    obtain ⟨palette, made⟩ := Palette.exists_ofList? sound.palette
    exact ⟨⟨id, spec.opening, spec.closing, palette, spec.orphan⟩, sound, rfl, rfl, rfl,
      Palette.toList_of_ofList? made, rfl⟩

end PairDefinition

theorem checkPalette_ok_iff {place : FieldPath} {palette : List Color} {done : Unit} :
    Settings.checkPalette place palette = .ok done ↔
      palette ≠ [] ∧ ∀ c ∈ palette, c.name ≠ "" := by
  unfold Settings.checkPalette
  cases done
  cases palette <;> simp [checkColors_ok_iff]

namespace Settings

variable {mode : ColorMode} {place : FieldPath} {specs : List PairSpec} {s : Settings}

theorem ofDefinitions_ok_iff {pairs : List PairDefinition} :
    ofDefinitions mode place pairs = .ok s ↔ pairs ≠ [] ∧ s = { mode, pairs } := by
  unfold ofDefinitions
  cases pairs <;> simp [eq_comm]

theorem ofSpecs_ok_iff :
    ofSpecs mode place specs = .ok s ↔
      ∃ pairs, List.Forall₂ (fun (numbered : PairSpec × Nat) d => numbered.1.Sound ∧
        d.id = numbered.2 ∧ d.Follows numbered.1) specs.zipIdx pairs ∧ pairs ≠ [] ∧
        s = { mode, pairs } := by
  unfold ofSpecs
  simp only [bind_ok_iff, mapM_ok_iff, PairDefinition.ofSpec_ok_iff, ofDefinitions_ok_iff]

/-- The place of a list makes a difference to errors only. -/
theorem ofSpecs_ok_congr (place place' : FieldPath) :
    ofSpecs mode place specs = .ok s ↔ ofSpecs mode place' specs = .ok s :=
  ofSpecs_ok_iff.trans ofSpecs_ok_iff.symm

theorem exists_ofSpecs_iff (mode : ColorMode) (place : FieldPath) :
    (∃ s, ofSpecs mode place specs = .ok s) ↔ specs ≠ [] ∧ ∀ spec ∈ specs, spec.Sound := by
  rw [← exists_mapM_zipIdx_ok_iff (f := fun numbered => PairDefinition.ofSpec
    (place.index numbered.2) numbered.2 numbered.1)
    (fun _ _ => PairDefinition.exists_ofSpec_iff) 0]
  simp only [ofSpecs_ok_iff, mapM_ok_iff, PairDefinition.ofSpec_ok_iff]
  constructor
  · rintro ⟨s, pairs, each, filled, -⟩
    refine ⟨?_, pairs, each⟩
    rintro rfl
    exact filled (List.forall₂_nil_left_iff.mp each)
  · rintro ⟨filled, pairs, each⟩
    refine ⟨_, pairs, each, ?_, rfl⟩
    rintro rfl
    exact filled (by simpa using List.forall₂_nil_right_iff.mp each)

/-- A palette is checked twice, which makes no difference to what is accepted. -/
theorem independent_ok_iff :
    independent specs = .ok s ↔ ofSpecs .independent place specs = .ok s := by
  have each : ∀ (numbered : PairSpec × Nat) (d : PairDefinition),
      (checkPalette (FieldPath.member (FieldPath.index ⟨"pairs", []⟩ numbered.2) "palette")
          numbered.1.palette >>= fun _ => PairDefinition.ofSpec
            (FieldPath.index ⟨"pairs", []⟩ numbered.2) numbered.2 numbered.1) = .ok d ↔
        numbered.1.Sound ∧ d.id = numbered.2 ∧ d.Follows numbered.1 := by
    intro numbered d
    simp only [bind_ok_iff, checkPalette_ok_iff, PairDefinition.ofSpec_ok_iff]
    constructor
    · rintro ⟨⟨⟩, -, made⟩
      exact made
    · rintro ⟨sound, made⟩
      exact ⟨(), ⟨sound.palette, sound.named⟩, sound, made⟩
  rw [ofSpecs_ok_iff]
  unfold independent
  simp only [bind_ok_iff, mapM_ok_iff, each, ofDefinitions_ok_iff]

/-- The colors are checked once for the whole list, even if it holds no pair. -/
theorem consecutive_ok_iff {pairs : List (String × String)} {palette : List Color}
    {orphan : Color} : consecutive pairs palette orphan = .ok s ↔
      (palette ≠ [] ∧ (∀ c ∈ palette, c.name ≠ "") ∧ orphan.name ≠ "") ∧
        ofSpecs .consecutive place (pairs.map (shareColors palette orphan)) = .ok s := by
  rw [ofSpecs_ok_congr place ⟨"pairs", []⟩]
  unfold consecutive
  simp only [bind_ok_iff, checkPalette_ok_iff]
  constructor
  · rintro ⟨-, ⟨filled, named⟩, accepted⟩
    obtain ⟨orphan, accepted⟩ := passed_of_ok accepted
    exact ⟨⟨filled, named, by simpa using orphan⟩, accepted⟩
  · rintro ⟨⟨filled, named, orphan⟩, accepted⟩
    exact ⟨(), ⟨filled, named⟩, check_ok_iff.mpr ⟨by simpa using orphan, accepted⟩⟩

end Settings

/-! ## What is accepted -/

namespace Document.Means

variable {d : Document} {parts : Decoded} {mode : ColorMode} {place : FieldPath} {s : Settings}

/-- The colors of both lists pass the checks of a pair, whichever list is selected. -/
theorem colored (written : d.Means parts) {spec : PairSpec} (membership : spec ∈ parts.chosen mode) :
    (spec.palette ≠ [] ∧ ∀ c ∈ spec.palette, c.name ≠ "") ∧ spec.orphan.name ≠ "" := by
  cases mode with
  | consecutive =>
    obtain ⟨pair, -, rfl⟩ := List.mem_map.mp membership
    obtain ⟨_, _, _, -, -, -, writesPalette, writesOrphan⟩ := written.consecutive
    exact ⟨writesPalette.named, writesOrphan.2⟩
  | independent =>
    obtain ⟨items, -, each⟩ := written.independent
    obtain ⟨i, inside, rfl⟩ := List.getElem_of_mem membership
    obtain ⟨_, _, _, -, -, writesPalette, writesOrphan⟩ := each.get (each.length_eq ▸ inside) inside
    exact ⟨writesPalette.named, writesOrphan.2⟩

/-- Only the literals of the selected list are left to be checked. -/
theorem usable_iff (written : d.Means parts) :
    Usable (parts.literals mode) ↔
      parts.chosen mode ≠ [] ∧ ∀ spec ∈ parts.chosen mode, spec.Sound := by
  rw [parts.literals_eq, Usable, List.forall_mem_map]
  refine and_congr (not_congr List.map_eq_nil_iff) (forall₂_congr fun spec membership => ?_)
  obtain ⟨⟨filled, named⟩, orphan⟩ := written.colored membership
  constructor
  · rintro ⟨opening, closing, distinct⟩
    exact ⟨opening, closing, distinct, filled, named, orphan⟩
  · intro sound
    exact ⟨sound.opening, sound.closing, sound.distinct⟩

theorem settings_ok_iff (written : d.Means parts) :
    parts.settings mode = .ok s ↔ Settings.ofSpecs mode place (parts.chosen mode) = .ok s := by
  cases mode with
  | consecutive =>
    obtain ⟨_, _, _, -, -, -, writesPalette, writesOrphan⟩ := written.consecutive
    have ⟨filled, named⟩ := writesPalette.named
    exact Settings.consecutive_ok_iff.trans (and_iff_right ⟨filled, named, writesOrphan.2⟩)
  | independent => exact Settings.independent_ok_iff

/-- Both lists are read, and the selected one is built. -/
theorem ofDocument_eq (written : d.Means parts) :
    Settings.ofDocument d =
      (Settings.ofSpecs d.mode d.selectedPlace (parts.chosen d.mode) >>= fun made =>
        .ok (d.modify made)) := by
  have consecutive := readConsecutive_ok_iff.mpr ⟨_, _, _, written.consecutive, rfl⟩
  have independent := readIndependent_ok_iff.mpr written.independent
  unfold Settings.ofDocument selectedPlace
  rw [consecutive, independent]
  cases d.mode with
  | consecutive => rfl
  | independent => rfl

theorem ofDocument_ok_iff (written : d.Means parts) (place : FieldPath) :
    Settings.ofDocument d = .ok s ↔
      ∃ made, Settings.ofSpecs d.mode place (parts.chosen d.mode) = .ok made ∧
        d.modify made = s := by
  rw [written.ofDocument_eq, bind_ok_iff]
  exact exists_congr fun made =>
    and_congr (Settings.ofSpecs_ok_congr d.selectedPlace place) (Except.ok.injEq ..).to_iff

end Document.Means

/-- Lists that can be read have a meaning. -/
theorem Document.exists_means_of_reads {d : Document} {consecutive independent : List PairSpec}
    (first : readConsecutive d.consecutivePairs = .ok consecutive)
    (second : readIndependent d.independentPairs = .ok independent) : ∃ parts, d.Means parts := by
  obtain ⟨pairs, palette, orphan, writesConsecutive, -⟩ := readConsecutive_ok_iff.mp first
  exact ⟨⟨pairs, palette, orphan, independent⟩, writesConsecutive, readIndependent_ok_iff.mp second⟩

namespace Settings

variable {value : Json} {d : Document}

theorem exists_means {s : Settings} (accepted : ofDocument d = .ok s) : ∃ parts, d.Means parts := by
  obtain ⟨consecutive, readConsecutive, accepted⟩ := exists_of_bind_ok accepted
  obtain ⟨independent, readIndependent, -⟩ := exists_of_bind_ok accepted
  exact Document.exists_means_of_reads readConsecutive readIndependent

theorem exists_ofDocument_iff {parts : Decoded} (written : d.Means parts) :
    (∃ s, ofDocument d = .ok s) ↔ Usable (parts.literals d.mode) := by
  rw [written.usable_iff, ← exists_ofSpecs_iff d.mode ⟨"pairs", []⟩]
  simp only [written.ofDocument_ok_iff ⟨"pairs", []⟩]
  constructor
  · rintro ⟨_, made, built, -⟩
    exact ⟨made, built⟩
  · rintro ⟨made, built⟩
    exact ⟨_, made, built, rfl⟩

theorem ofJson_ok_iff (read : Document.ofJson value = .ok d) :
    ((∃ s, ofJson value = .ok s) ↔ ∃ parts, d.Means parts ∧ Usable (parts.literals d.mode)) ∧
      ∀ s parts, ofJson value = .ok s → d.Means parts →
        (parts.settings d.mode).map d.modify = .ok s := by
  have whole : ofJson value = ofDocument d := by rw [ofJson, read]
  rw [whole]
  constructor
  · constructor
    · rintro ⟨s, accepted⟩
      obtain ⟨parts, written⟩ := exists_means accepted
      exact ⟨parts, written, (exists_ofDocument_iff written).mp ⟨s, accepted⟩⟩
    · rintro ⟨parts, written, usable⟩
      exact (exists_ofDocument_iff written).mpr usable
  · intro s parts accepted written
    obtain ⟨made, built, rfl⟩ := (written.ofDocument_ok_iff ⟨"pairs", []⟩).mp accepted
    rw [written.settings_ok_iff.mpr built]
    rfl

end Settings

/-- A document in independent mode, with a pair in the other list that could not be used. -/
def mixed : Document where
  mode := .independent
  consecutivePairs := .array [.string "||", .array [.string "Gold"], .string "Red"]
  independentPairs := .array [.array [.array [.string "<%", .string "%>"],
    .array [.string "Gold", .string "Orchid"], .string "Red"]]

def mixedLists : List (String × Json) :=
  [(Document.consecutiveField, mixed.consecutivePairs),
    (Document.independentField, mixed.independentPairs)]

def mixedJson : Json := .object (("colorMode", .string mixed.mode.name) :: mixedLists)

def mixedParts : Decoded where
  pairs := [("|", "|")]
  palette := [⟨"Gold"⟩]
  orphan := ⟨"Red"⟩
  specs := [⟨"<%", "%>", [⟨"Gold"⟩, ⟨"Orchid"⟩], ⟨"Red"⟩⟩]

theorem mixed_means : mixed.Means mixedParts where
  consecutive := by
    refine ⟨[.string "||"], .array [.string "Gold"], .string "Red", rfl, by decide, ?_, ?_, ?_⟩
    · exact .cons (.characters ..) .nil
    · exact ⟨_, rfl, by simp, .cons ⟨rfl, by decide⟩ .nil⟩
    · exact ⟨rfl, by decide⟩
  independent := by
    refine ⟨_, rfl, .cons ⟨_, _, _, rfl, .texts .., ?_, ?_⟩ .nil⟩
    · exact ⟨_, rfl, by simp, .cons ⟨rfl, by decide⟩ (.cons ⟨rfl, by decide⟩ .nil)⟩
    · exact ⟨rfl, by decide⟩

theorem ofJson_mixed : Document.ofJson mixedJson = .ok mixed ∧
    ∃ s, Settings.ofJson mixedJson = .ok s ∧
      (Settings.independent mixedParts.specs).map mixed.modify = .ok s := by
  have read : Document.ofJson mixedJson = .ok mixed := rfl
  obtain ⟨accepts, means⟩ := Settings.ofJson_ok_iff read
  obtain ⟨s, accepted⟩ := accepts.mpr ⟨mixedParts, mixed_means, by decide⟩
  exact ⟨read, s, accepted, means s mixedParts accepted mixed_means⟩

/-! ## Documents that differ in their mode -/

namespace Document

/-- The members of a document, one of which names the mode. -/
def inMode (mode : ColorMode) (before after : List (String × Json)) : Json :=
  .object (before ++ ("colorMode", .string mode.name) :: after)

def withMode (mode : ColorMode) (d : Document) : Document := { d with mode }

variable {mode : ColorMode} {d : Document} {before after : List (String × Json)}

theorem setMembers_cons {m : String × Json} :
    d.setMembers (m :: after) = d.setMember m.1 m.2 >>= fun d => d.setMembers after :=
  List.foldlM_cons

theorem setMembers_append :
    d.setMembers (before ++ after) = d.setMembers before >>= fun d => d.setMembers after :=
  List.foldlM_append

theorem setMember_withMode {name : String} {value : Json} (other : name ≠ "colorMode") :
    (d.withMode mode).setMember name value = (d.setMember name value).map (withMode mode) := by
  unfold setMember
  rw [if_neg other, if_neg other]
  split_ifs
  · rfl
  · rfl
  · cases readBool value <;> rfl
  · cases readBool value <;> rfl
  · cases readCount value <;> rfl
  · cases readStrings value <;> rfl
  · rfl

theorem setMembers_withMode (single : ∀ m ∈ after, m.1 ≠ "colorMode") :
    (d.withMode mode).setMembers after = (d.setMembers after).map (withMode mode) := by
  induction after generalizing d with
  | nil => rfl
  | cons m rest ih =>
    obtain ⟨other, single⟩ := List.forall_mem_cons.mp single
    rw [setMembers_cons, setMembers_cons, setMember_withMode other]
    cases d.setMember m.1 m.2 with
    | error cause => rfl
    | ok d => exact ih single

theorem setMember_mode : d.setMember "colorMode" (.string mode.name) = .ok (d.withMode mode) := by
  cases mode <;> rfl

theorem ofJson_inMode (single : ∀ m ∈ after, m.1 ≠ "colorMode") :
    ofJson (inMode mode before after) = (ofJson (.object (before ++ after))).map (withMode mode) := by
  unfold ofJson inMode
  dsimp only
  rw [setMembers_append, setMembers_append]
  cases setMembers {} before with
  | error cause => rfl
  | ok d =>
    change d.setMembers (("colorMode", .string mode.name) :: after) = _
    rw [setMembers_cons, setMember_mode]
    exact setMembers_withMode single

end Document

namespace Settings

variable {before after : List (String × Json)}

theorem ofJson_inMode {mode : ColorMode} (single : ∀ m ∈ after, m.1 ≠ "colorMode") {d : Document}
    (read : Document.ofJson (.object (before ++ after)) = .ok d) :
    ofJson (Document.inMode mode before after) = ofDocument (d.withMode mode) := by
  unfold ofJson
  rw [Document.ofJson_inMode single, read]
  rfl

theorem exists_ofJson_inMode_iff {mode : ColorMode} (single : ∀ m ∈ after, m.1 ≠ "colorMode")
    {d : Document} (read : Document.ofJson (.object (before ++ after)) = .ok d) {parts : Decoded}
    (written : d.Means parts) :
    (∃ s, ofJson (Document.inMode mode before after) = .ok s) ↔ Usable (parts.literals mode) := by
  have written' : (d.withMode mode).Means parts := ⟨written.consecutive, written.independent⟩
  rw [ofJson_inMode single read]
  exact exists_ofDocument_iff written'

/-- What is accepted in one of the modes can be decoded without a mode. -/
theorem exists_means_of_inMode {mode : ColorMode} (single : ∀ m ∈ after, m.1 ≠ "colorMode")
    {s : Settings} (accepted : ofJson (Document.inMode mode before after) = .ok s) :
    ∃ d parts, Document.ofJson (.object (before ++ after)) = .ok d ∧ d.Means parts := by
  cases read : Document.ofJson (.object (before ++ after)) with
  | error cause =>
    rw [ofJson, Document.ofJson_inMode single, read] at accepted
    cases accepted
  | ok d =>
    rw [ofJson_inMode single read] at accepted
    obtain ⟨parts, written⟩ := exists_means accepted
    exact ⟨d, parts, rfl, written.consecutive, written.independent⟩

theorem accepted_of_usable {mode mode' : ColorMode} (single : ∀ m ∈ after, m.1 ≠ "colorMode")
    (usable : ∀ d parts, Document.ofJson (.object (before ++ after)) = .ok d → d.Means parts →
      Usable (parts.literals mode) → Usable (parts.literals mode')) :
    (∃ s, ofJson (Document.inMode mode before after) = .ok s) →
      ∃ s, ofJson (Document.inMode mode' before after) = .ok s := by
  rintro ⟨s, accepted⟩
  obtain ⟨d, parts, read, written⟩ := exists_means_of_inMode single accepted
  apply (exists_ofJson_inMode_iff single read written).mpr
  apply usable d parts read written
  exact (exists_ofJson_inMode_iff single read written).mp ⟨s, accepted⟩

/-- The mode of a document makes no difference if and only if the literals of both of its lists can
be told apart, or of neither. -/
theorem modes_accept_alike_iff (single : ∀ m ∈ after, m.1 ≠ "colorMode") :
    ((∃ s, ofJson (Document.inMode .consecutive before after) = .ok s) ↔
        ∃ s, ofJson (Document.inMode .independent before after) = .ok s) ↔
      ∀ d parts, Document.ofJson (.object (before ++ after)) = .ok d → d.Means parts →
        (Usable (parts.literals .consecutive) ↔ Usable (parts.literals .independent)) := by
  constructor
  · intro alike d parts read written
    rwa [exists_ofJson_inMode_iff single read written,
      exists_ofJson_inMode_iff single read written] at alike
  · intro alike
    constructor
    · exact accepted_of_usable single fun d parts read written => (alike d parts read written).mp
    · exact accepted_of_usable single fun d parts read written => (alike d parts read written).mpr

theorem modes_differ_on_mixed :
    ¬ ((∃ s, ofJson (Document.inMode .consecutive [] mixedLists) = .ok s) ↔
      ∃ s, ofJson (Document.inMode .independent [] mixedLists) = .ok s) := by
  intro alike
  have usable := (modes_accept_alike_iff (by decide)).mp alike (mixed.withMode .consecutive)
    mixedParts rfl ⟨mixed_means.consecutive, mixed_means.independent⟩
  exact absurd (usable.mpr (by decide)) (by decide)

/-- A single pair of consecutive mode that opens and closes with the same literal is refused in this
mode only. -/
theorem modes_do_not_accept_alike :
    ¬ ∀ before after : List (String × Json), (∀ m ∈ before ++ after, m.1 ≠ "colorMode") →
      ((∃ s, ofJson (Document.inMode .consecutive before after) = .ok s) ↔
        ∃ s, ofJson (Document.inMode .independent before after) = .ok s) := by
  intro alike
  have accepts := alike [] [(Document.consecutiveField, mixed.consecutivePairs)] (by decide)
  obtain ⟨s, accepted⟩ := accepts.mpr ⟨_, rfl⟩
  cases accepted

end Settings

end BracketColoring

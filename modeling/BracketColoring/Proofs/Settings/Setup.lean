import BracketColoring.Proofs.Literals.Searched
import BracketColoring.Proofs.Settings.Valid
import BracketColoring.Settings.Setup

/-!
# Patterns that engines refuse

An engine has the last word on settings, and no other: it is not asked about settings that fail a
check before it (`setup_pattern_iff`). Programs refuse the pattern of no settings, so with them the
checks before it decide (`setup_programs`).
-/

namespace BracketColoring

open PatternEngine (compile?)

namespace Settings

variable {ε : Type} {compile : String → Except ε Unit} {checked : Except SettingsError Settings}
  {s : Settings}

theorem setup_ok_iff :
    setup compile checked = .ok s ↔ checked = .ok s ∧ compile s.literals.pattern = .ok () := by
  cases checked with
  | error cause => simp [setup]
  | ok s' =>
    cases compiled : compile s'.literals.pattern with
    | error cause =>
      simp only [setup, compiled, reduceCtorEq, Except.ok.injEq, false_iff, not_and]
      rintro rfl accepted
      cases compiled.symm.trans accepted
    | ok _ =>
      simp only [setup, compiled, Except.ok.injEq, iff_self_and]
      rintro rfl
      exact compiled

/-- A pattern is refused only if all other checks were passed. -/
theorem setup_pattern_iff {cause : ε} :
    setup compile checked = .error (.pattern cause) ↔
      ∃ s, checked = .ok s ∧ compile s.literals.pattern = .error cause := by
  cases checked with
  | error cause => simp [setup]
  | ok s => cases compiled : compile s.literals.pattern <;> simp [setup, compiled]

/-- Another check that fails decides, whatever the engine says. -/
theorem setup_settings_iff {cause : SettingsError} :
    setup compile checked = .error (.settings cause) ↔ checked = .error cause := by
  cases checked with
  | error cause => simp [setup]
  | ok s => cases compiled : compile s.literals.pattern <;> simp [setup, compiled]

/-- There is a program for the pattern of all settings that pass the other checks. -/
theorem Valid.exists_program (valid : s.Valid) :
    ∃ p : Program, compile? s.literals.pattern = some p := by
  have filled : ∀ d ∈ s.pairs, d.opening ≠ "" ∧ d.closing ≠ "" := fun d member =>
    ⟨(valid.pairs d member).opening, (valid.pairs d member).closing⟩
  obtain ⟨p, compiles, -⟩ := Literals.exists_program
    (Literals.alternatives_ne_nil valid.inhabited) (Literals.ne_empty_of_mem_alternatives filled)
  rw [← Literals.pattern_eq] at compiles
  exact ⟨p, compiles⟩

/-- Asks for a program. -/
def programs (pattern : String) : Except Unit Unit :=
  if (compile? pattern : Option Program).isSome then .ok () else .error ()

theorem setup_programs (valid : ∀ s, checked = .ok s → s.Valid) :
    setup programs checked = checked.mapError .settings := by
  cases checked with
  | error cause => rfl
  | ok s =>
    obtain ⟨p, compiles⟩ := (valid s rfl).exists_program
    have compiled : programs s.literals.pattern = .ok () := by
      rw [programs, compiles, Option.isSome_some, if_pos rfl]
    exact setup_ok_iff.mpr ⟨rfl, compiled⟩

/-- Settings are announced alike, however the reasons to refuse them are told. -/
theorem announce_mapError {ε' : Type} (f : ε → ε') (result : Except ε Settings) :
    announce (result.mapError f) = ⟨result.mapError f, (announce result).signals⟩ := by
  cases result <;> rfl

/-- With programs, to set up from a value is to load it. -/
theorem setupJson_programs (value : Json) :
    setupJson programs value =
      ⟨(ofJson value).mapError .settings, (loadJson value).signals⟩ := by
  rw [setupJson, setup_programs fun _ accepted => valid_ofJson accepted, announce_mapError, loadJson]

theorem setupText_programs (text : String) :
    setupText programs text = ⟨(ofText text).mapError .settings, (loadText text).signals⟩ := by
  rw [setupText, setup_programs fun _ accepted => valid_ofText accepted, announce_mapError, loadText]

end Settings

end BracketColoring

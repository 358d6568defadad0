import BracketColoring.Proofs.Session.Edits
import BracketColoring.Region.Languages

/-!
# Edits of documents with region lexers

A region lexer looks at the whole text, so whether a bracket lies in a region can depend on lines
far below it. The lexers for languages like C and for JSON have regions of several lines, and for
them leaving the text above an edit as it is does not leave the brackets above it as they are.
-/

namespace BracketColoring

namespace RegionLexer

def tree (l : RegionLexer) (text : String) : Token := l.tokenize text.toList

theorem steady (l : RegionLexer) : Session.Steady l.tree l := fun _ => rfl

/-- With a region lexer and without delay, a session agrees with a new one after each of some edits
exactly when each edit leaves the brackets on the lines that it keeps as they are. -/
theorem agrees_iff_keepBrackets (l : RegionLexer) {settings : Settings} (valid : settings.Valid)
    (immediate : settings.debounce = 0) (text : String) (edits : List Edit) :
    (Session.refreshed settings l text).AgreesAfterEach l edits ↔
      Session.AllKeepBrackets l.tree settings text edits := by
  exact Session.refreshed_agreesAfterEach_iff l.steady valid immediate text edits

/-- The settings of an empty document, but without delay. -/
def immediate : Settings := { Settings.classic with debounce := 0 }

theorem valid_immediate : immediate.Valid := Settings.valid_classic.modify rfl rfl

theorem agrees_iff_keepBrackets_json :
    ∃ l, json? = some l ∧ immediate.Valid ∧ immediate.debounce = 0 ∧
      (Session.refreshed immediate l "[\n").AgreesAfterEach l
        [⟨1, "[\n(", 0⟩, ⟨1, "[\n(\"]\")]", 5⟩] := by
  have kept : (json?.any fun l => decide (Session.AllKeepBrackets l.tree immediate "[\n"
      [⟨1, "[\n(", 0⟩, ⟨1, "[\n(\"]\")]", 5⟩])) = true := by
    decide +kernel
  obtain ⟨l, found, keeps⟩ := (Option.any_eq_true _ _).mp kept
  refine ⟨l, found, valid_immediate, rfl, ?_⟩
  exact (agrees_iff_keepBrackets l valid_immediate rfl _ _).mpr (of_decide_eq_true keeps)

end RegionLexer

def linesOf (text : String) : List (List Char) := text.toList.splitOn '\n'

/-- Every edit leaves the text of the lines above it as it is. -/
def SameLinesAbove (old : String) : List Edit → Prop
  | [] => True
  | e :: rest => (linesOf e.text).take e.line = (linesOf old).take e.line ∧ SameLinesAbove e.text rest

namespace RegionLexer

/-- For edits that leave the lines above them as they are, incremental passes are safe. -/
def SafeForSameLines (l : RegionLexer) : Prop :=
  ∀ settings : Settings, settings.Valid → settings.debounce = 0 → ∀ text edits,
    SameLinesAbove text edits →
      (Session.refreshed settings l text).AgreesAfterEach l edits

theorem not_safe_of_differ {l : RegionLexer} {old new : String}
    (same : (linesOf new).take 1 = (linesOf old).take 1)
    (differ : Session.bracketsOn l.tree immediate new 0 ≠ Session.bracketsOn l.tree immediate old 0) :
    ¬ l.SafeForSameLines := by
  intro safe
  have agrees := safe immediate valid_immediate rfl old [⟨1, new, 0⟩] ⟨same, trivial⟩
  have keeps := (Session.refreshed_agreesAfterEach_iff l.steady valid_immediate rfl old _).mp agrees
  exact differ (keeps.1 0 (by simp [lineCount]))

theorem multiline_presets_not_safe :
    (∃ l, cLike? = some l ∧ ¬ l.SafeForSameLines) ∧
      ∃ l, json? = some l ∧ ¬ l.SafeForSameLines := by
  constructor
  · have differ : (cLike?.any fun l => decide (Session.bracketsOn l.tree immediate "/*(\n*/" 0 ≠
        Session.bracketsOn l.tree immediate "/*(\n" 0)) = true := by
      decide +kernel
    obtain ⟨l, found, apart⟩ := (Option.any_eq_true _ _).mp differ
    exact ⟨l, found, not_safe_of_differ (by decide) (of_decide_eq_true apart)⟩
  · have differ : (json?.any fun l => decide (Session.bracketsOn l.tree immediate "\"(\n\"" 0 ≠
        Session.bracketsOn l.tree immediate "\"(\n" 0)) = true := by
      decide +kernel
    obtain ⟨l, found, apart⟩ := (Option.any_eq_true _ _).mp differ
    exact ⟨l, found, not_safe_of_differ (by decide) (of_decide_eq_true apart)⟩

end RegionLexer

end BracketColoring

import BracketColoring.Settings.Load

/-!
# Setting up with an engine

The last check of settings is that the pattern of their literals can be compiled. This is up to the
engine, which may have a limit on the size of patterns, and so it is a parameter here: `compile` gives
what the engine says against a pattern that it refuses. All other checks come before it.
-/

namespace BracketColoring

/-- Why settings are refused, with an engine. -/
inductive SetupError (ε : Type) where
  | settings (cause : SettingsError)
  /-- The engine refuses the pattern of the literals. -/
  | pattern (cause : ε)
deriving DecidableEq, Repr, Inhabited

def SetupError.message {ε : Type} [ToString ε] : SetupError ε → String
  | .settings cause => cause.message
  | .pattern cause => "bracket literal pattern error: " ++ toString cause

namespace Settings

variable {ε : Type}

/-- Compiles the pattern of settings that pass the other checks. -/
def setup (compile : String → Except ε Unit) :
    Except SettingsError Settings → Except (SetupError ε) Settings
  | .error cause => .error (.settings cause)
  | .ok s =>
    match compile s.literals.pattern with
    | .ok () => .ok s
    | .error cause => .error (.pattern cause)

def setupJson (compile : String → Except ε Unit) (value : Json) :
    Traced (Except (SetupError ε) Settings) := announce (setup compile (ofJson value))

def setupText (compile : String → Except ε Unit) (text : String) :
    Traced (Except (SetupError ε) Settings) := announce (setup compile (ofText text))

end Settings

end BracketColoring

import BracketColoring.Event
import BracketColoring.Settings.Document

/-!
# Loading settings

Settings that are read from a document are announced with their mode, the number of their pairs and
their delay.
-/

namespace BracketColoring.Settings

def loadedEvent (s : Settings) : Event := .settingsLoaded s.mode s.pairs.length s.debounce

/-- Announces settings, if they were accepted. -/
def announce {ε : Type} : Except ε Settings → Traced (Except ε Settings)
  | .ok s => do
    Traced.log s.loadedEvent
    return .ok s
  | .error e => return .error e

def loadJson (value : Json) : Traced (Except SettingsError Settings) := announce (ofJson value)

def loadText (text : String) : Traced (Except SettingsError Settings) := announce (ofText text)

end BracketColoring.Settings

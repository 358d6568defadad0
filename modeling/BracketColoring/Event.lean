import BracketColoring.ColorMap

/-!
# Events

What the library tells its host while it works: log events, each with a level, a target, a message
and named values, and color maps for the subscribers of a document. `Traced` is a value with the
signals sent while it was computed; `Traced.value` passes through `pure` and `bind`, so that signals
never change a result.
-/

namespace BracketColoring

inductive Level where
  | trace
  | debug
  | info
  | warn
deriving DecidableEq, Repr, Inhabited

def Level.name : Level → String
  | .trace => "TRACE"
  | .debug => "DEBUG"
  | .info => "INFO"
  | .warn => "WARN"

inductive EventValue where
  | count (n : Nat)
  | text (s : String)
deriving DecidableEq, Repr, Inhabited

/-- Milliseconds below a second are written as such; from a second on, as seconds with a fraction
that has no trailing zeros. Zero has the smallest unit. -/
def describeDelay (ms : Nat) : String :=
  if ms = 0 then "0ns"
  else if ms < 1000 then toString ms ++ "ms"
  else
    let places := RealFormat.padLeft 3 (Nat.toDigits 10 (ms % 1000))
    let fraction := (places.reverse.dropWhile (· = '0')).reverse
    toString (ms / 1000) ++ (if fraction.isEmpty then "" else "." ++ String.ofList fraction) ++ "s"

/-- The number of a document in its workspace. -/
abbrev DocumentId := Nat

def documentName (id : DocumentId) : String := "doc#" ++ toString id

inductive Event where
  | settingsLoaded (mode : ColorMode) (pairs debounce : Nat)
  | linesDropped (start dropped : Nat)
  | editImmediate (line dirty : Nat)
  | editDeferred (line dirty delay : Nat)
  | fired (line : Nat)
  | tokenizeFailed (error : TokenizeError) (dirty : Nat)
  | occurrencesPastEnd (count lines : Nat)
  | passRendered (dirty rebuiltFrom lines ranges pairs : Nat)
  | openExcluded (language : String)
  | documentOpened (id : DocumentId) (language : String) (lines : Nat)
  | documentClosed (id : DocumentId)
  | settingsReloaded (documents closed : Nat)
deriving DecidableEq, Repr, Inhabited

namespace Event

def level : Event → Level
  | .settingsLoaded .. | .passRendered .. => .debug
  | .linesDropped .. | .editImmediate .. | .editDeferred .. | .fired .. => .trace
  | .tokenizeFailed .. | .occurrencesPastEnd .. => .warn
  | .openExcluded .. | .documentOpened .. | .documentClosed .. | .settingsReloaded .. => .info

/-- The part of the library that an event comes from. -/
def target : Event → String
  | .settingsLoaded .. => "brackets.settings"
  | .editImmediate .. | .editDeferred .. | .fired .. => "brackets.scheduler"
  | .linesDropped .. | .tokenizeFailed .. | .occurrencesPastEnd .. | .passRendered .. =>
    "brackets.session"
  | .openExcluded .. | .documentOpened .. | .documentClosed .. | .settingsReloaded .. =>
    "brackets.manager"

def message : Event → String
  | .settingsLoaded .. => "settings_loaded"
  | .linesDropped .. => "line_cache_truncated"
  | .editImmediate .. => "edit_immediate"
  | .editDeferred .. => "edit_deferred"
  | .fired .. => "fired"
  | .tokenizeFailed .. => "tokenize_failed"
  | .occurrencesPastEnd .. => "occurrences_past_document_end"
  | .passRendered .. => "pass_rendered"
  | .openExcluded .. => "open_excluded"
  | .documentOpened .. => "document_opened"
  | .documentClosed .. => "document_closed"
  | .settingsReloaded .. => "settings_reloaded"

def values : Event → List (String × EventValue)
  | .settingsLoaded mode pairs debounce =>
    [("mode", .text mode.name), ("pairs", .count pairs), ("debounce_ms", .count debounce)]
  | .linesDropped start dropped => [("from", .count start), ("dropped", .count dropped)]
  | .editImmediate line dirty => [("line", .count line), ("dirty", .count dirty)]
  | .editDeferred line dirty delay =>
    [("line", .count line), ("dirty", .count dirty), ("delay", .text (describeDelay delay))]
  | .fired line => [("line", .count line)]
  | .tokenizeFailed error dirty =>
    [("error", .text error.message), ("dirty_line", .count dirty)]
  | .occurrencesPastEnd count lines => [("past_end", .count count), ("line_count", .count lines)]
  | .passRendered dirty rebuiltFrom lines ranges pairs =>
    [("dirty_line", .count dirty), ("rebuilt_from", .count rebuiltFrom), ("lines", .count lines),
      ("ranges", .count ranges), ("pairs", .count pairs)]
  | .openExcluded language => [("language", .text language)]
  | .documentOpened id language lines =>
    [("document", .text (documentName id)), ("language", .text language), ("lines", .count lines)]
  | .documentClosed id => [("document", .text (documentName id))]
  | .settingsReloaded documents closed =>
    [("documents", .count documents), ("closed", .count closed)]

end Event

/-- The number by which a host knows a subscriber. -/
abbrev SubscriberId := Nat

/-- What is sent to the host: an event for its log, or a color map for a subscriber. -/
inductive Signal where
  | event (e : Event)
  | render (subscriber : SubscriberId) (colors : ColorMap)
deriving DecidableEq, Repr, Inhabited

/-- A value with the signals sent while it was computed. -/
structure Traced (α : Type) where
  value : α
  signals : List Signal
deriving Inhabited

namespace Traced

variable {α β : Type}

instance : Monad Traced where
  pure a := ⟨a, []⟩
  bind x f := ⟨(f x.value).value, x.signals ++ (f x.value).signals⟩

@[simp] theorem value_pure (a : α) : (pure a : Traced α).value = a := rfl

@[simp] theorem signals_pure (a : α) : (pure a : Traced α).signals = [] := rfl

@[simp] theorem value_bind (x : Traced α) (f : α → Traced β) :
    (x >>= f).value = (f x.value).value := rfl

@[simp] theorem signals_bind (x : Traced α) (f : α → Traced β) :
    (x >>= f).signals = x.signals ++ (f x.value).signals := rfl

def send (signals : List Signal) : Traced Unit := ⟨(), signals⟩

def log (e : Event) : Traced Unit := send [.event e]

def logAll (es : List Event) : Traced Unit := send (es.map .event)

/-- The log events among the signals, in order. -/
def events (x : Traced α) : List Event :=
  x.signals.filterMap fun | .event e => some e | .render .. => none

/-- The color maps handed to subscribers, in order. -/
def renders (x : Traced α) : List (SubscriberId × ColorMap) :=
  x.signals.filterMap fun | .event _ => none | .render id colors => some (id, colors)

@[simp] theorem events_pure (a : α) : (pure a : Traced α).events = [] := rfl

@[simp] theorem renders_pure (a : α) : (pure a : Traced α).renders = [] := rfl

@[simp] theorem events_bind (x : Traced α) (f : α → Traced β) :
    (x >>= f).events = x.events ++ (f x.value).events := by
  simp [events]

@[simp] theorem renders_bind (x : Traced α) (f : α → Traced β) :
    (x >>= f).renders = x.renders ++ (f x.value).renders := by
  simp [renders]

@[simp] theorem events_log (e : Event) : (log e).events = [e] := rfl

@[simp] theorem renders_log (e : Event) : (log e).renders = [] := rfl

@[simp] theorem events_logAll (es : List Event) : (logAll es).events = es := by
  rw [events, logAll, send, List.filterMap_map]
  exact List.filterMap_some

@[simp] theorem renders_logAll (es : List Event) : (logAll es).renders = [] := by
  simp [logAll, send, renders]

end Traced

end BracketColoring

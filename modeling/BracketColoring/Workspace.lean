import BracketColoring.Session

/-!
# Workspaces

A workspace holds the sessions of the open documents under common settings. Documents are numbered
in the order in which they were opened and numbers are not used again. A document in an excluded
language is not opened, and is closed when new settings exclude its language.
-/

namespace BracketColoring

structure OpenDocument (τ : Type) where
  id : DocumentId
  language : String
  session : Session τ

/-- The open documents, by number, with the settings they share.

The provider is a function: it answers alike whenever it is asked for the same language. A host could
have one that changes its answers; it would be asked at the same times, once for each document that is
opened and not excluded. -/
structure Workspace (τ : Type) where
  settings : Settings
  /-- A new tokenizer for a language, if there is one. -/
  provider : String → Option τ
  nextId : DocumentId
  documents : List (OpenDocument τ)

/-- Why a document cannot be opened. -/
inductive OpenError where
  | excluded (language : String)
  | unsupported (language : String)
deriving DecidableEq, Repr, Inhabited

def OpenError.message : OpenError → String
  | .excluded language => "language '" ++ language ++ "' is excluded from bracket colorization"
  | .unsupported language => "no tokenizer for language '" ++ language ++ "'"

namespace Workspace

variable {τ : Type}

def create (settings : Settings) (provider : String → Option τ) : Workspace τ :=
  ⟨settings, provider, 0, []⟩

def find? (w : Workspace τ) (id : DocumentId) : Option (OpenDocument τ) :=
  w.documents.find? (·.id == id)

def session? (w : Workspace τ) (id : DocumentId) : Option (Session τ) :=
  (w.find? id).map (·.session)

def language? (w : Workspace τ) (id : DocumentId) : Option String := (w.find? id).map (·.language)

def ids (w : Workspace τ) : List DocumentId := w.documents.map (·.id)

def size (w : Workspace τ) : Nat := w.documents.length

/-- Puts a session in the place of a document's session. -/
def setSession (w : Workspace τ) (id : DocumentId) (session : Session τ) : Workspace τ :=
  { w with documents := w.documents.map fun d => if d.id = id then { d with session } else d }

/-- Does something with the session of a document; nothing if the document is not open. -/
def onSession {α : Type} (w : Workspace τ) (id : DocumentId)
    (f : Session τ → Traced (α × Session τ)) : Traced (Option α × Workspace τ) :=
  match w.session? id with
  | none => return (none, w)
  | some session => do
    let (result, session) ← f session
    return (some result, w.setSession id session)

/-- Closes a document; tells whether it was open. -/
def close (w : Workspace τ) (id : DocumentId) : Traced (Bool × Workspace τ) := do
  if (w.find? id).isSome then
    Traced.log (.documentClosed id)
    return (true, { w with documents := w.documents.filter (·.id != id) })
  else
    return (false, w)

/-- The earliest time at which the work of some document is due. -/
def nextDeadline? (w : Workspace τ) : Option Nat :=
  (w.documents.filterMap (·.session.scheduler.deadline?)).min?

/-- Does something with every session in turn. -/
def onSessions {α : Type} (f : Session τ → Traced (α × Session τ)) :
    List (OpenDocument τ) → Traced (List (DocumentId × α) × List (OpenDocument τ))
  | [] => return ([], [])
  | d :: rest => do
    let (result, session) ← f d.session
    let (results, documents) ← onSessions f rest
    return ((d.id, result) :: results, { d with session } :: documents)

def closeAll (w : Workspace τ) : List DocumentId → Traced (Workspace τ)
  | [] => return w
  | id :: rest => do
    let (_, w) ← w.close id
    closeAll w rest

variable [Tokenizer τ]

/-- Opens a document and runs its first pass. -/
def openDocument (w : Workspace τ) (language text : String) :
    Traced (Except OpenError DocumentId × Workspace τ) := do
  if w.settings.isExcluded language then
    Traced.log (.openExcluded language)
    return (.error (.excluded language), w)
  else
    match w.provider language with
    | none => return (.error (.unsupported language), w)
    | some tokenizer =>
      let (_, session) ← (Session.create w.settings tokenizer text).refresh
      Traced.log (.documentOpened w.nextId language session.lineCount)
      return (.ok w.nextId,
        { w with
          nextId := w.nextId + 1
          documents := w.documents ++ [⟨w.nextId, language, session⟩] })

/-- Replaces the text of a document; nothing if it is not open. -/
def edit (w : Workspace τ) (id : DocumentId) (line : Nat) (text : String) (now : Nat) :
    Traced (Option PassOutcome × Workspace τ) := do
  let (outcome, w) ← w.onSession id fun s => s.edit line text now
  return (outcome.join, w)

/-- Runs the passes that are due; the results are those of the passes that ran. -/
def poll (w : Workspace τ) (now : Nat) :
    Traced (List (DocumentId × PassOutcome) × Workspace τ) := do
  let (outcomes, documents) ← onSessions (fun s => s.poll now) w.documents
  return (outcomes.filterMap fun (id, outcome) => outcome.map fun o => (id, o),
    { w with documents })

/-- Takes new settings. Documents whose language is now excluded are closed, and their numbers are
the result; all others start over under the new settings. -/
def reloadSettings (w : Workspace τ) (settings : Settings) :
    Traced (List DocumentId × Workspace τ) := do
  let excluded := (w.documents.filter fun d => settings.isExcluded d.language).map (·.id)
  let w ← w.closeAll excluded
  let (_, documents) ← onSessions (fun s => s.setSettings settings) w.documents
  Traced.log (.settingsReloaded documents.length excluded.length)
  return (excluded, { w with settings, documents })

omit [Tokenizer τ]

/-- A summary for debugging. -/
def describe (w : Workspace τ) : String :=
  "DocumentManager \x7b document_count: " ++ toString w.size ++ ", next_id: " ++ toString w.nextId
    ++ " \x7d"

end Workspace

end BracketColoring

import BracketColoring.Proofs.Session.Subscribers
import BracketColoring.Workspace

/-!
# Commands to a workspace

A command closes some documents, does at most one operation on the session of each of the others,
and may open one document. `Workspace.apply_eq` says so once for all commands. It needs that the
documents are numbered in increasing order, which commands keep (`Numbered`).
-/

namespace BracketColoring

inductive Command where
  | openDocument (language text : String)
  | close (id : DocumentId)
  | edit (id : DocumentId) (line : Nat) (text : String) (now : Nat)
  | poll (now : Nat)
  | reload (settings : Settings)
deriving DecidableEq, Repr

namespace Command

/-- What a command does to the session of a document that it does not close. -/
def operation? (id : DocumentId) : Command → Option Operation
  | .edit addressed line text now => if addressed = id then some (.edit line text now) else none
  | .poll now => some (.poll now)
  | .reload settings => some (.setSettings settings)
  | .openDocument .. | .close _ => none

/-- Whether a command closes a document of a language. -/
def closes (id : DocumentId) (language : String) : Command → Bool
  | .close addressed => decide (addressed = id)
  | .reload settings => settings.isExcluded language
  | .openDocument .. | .edit .. | .poll _ => false

/-- The settings in force after a command. -/
def settingsAfter (settings : Settings) : Command → Settings
  | .reload new => new
  | .openDocument .. | .close _ | .edit .. | .poll _ => settings

end Command

variable {τ : Type}

namespace Workspace

/-- The documents stand in the order in which they were opened. -/
structure Numbered (w : Workspace τ) : Prop where
  ascending : w.ids.Pairwise (· < ·)
  below : ∀ d ∈ w.documents, d.id < w.nextId

variable {w : Workspace τ}

/-! ## Documents by number -/

theorem numbered_create (settings : Settings) (provider : String → Option τ) :
    (create settings provider).Numbered :=
  ⟨.nil, by simp [create]⟩

namespace Numbered

theorem eq_of_id (numbered : w.Numbered) {d d' : OpenDocument τ} (membership : d ∈ w.documents)
    (membership' : d' ∈ w.documents) (same : d.id = d'.id) : d = d' := by
  have distinct : (w.documents.map (·.id)).Nodup := numbered.ascending.imp Nat.ne_of_lt
  exact List.inj_on_of_nodup_map distinct membership membership' same

theorem find?_eq_some_iff (numbered : w.Numbered) {id : DocumentId} {d : OpenDocument τ} :
    w.find? id = some d ↔ d ∈ w.documents ∧ d.id = id := by
  constructor
  · intro found
    exact ⟨List.mem_of_find?_eq_some found, by simpa using List.find?_some found⟩
  · rintro ⟨membership, rfl⟩
    cases found : w.find? d.id with
    | none => simpa using List.find?_eq_none.mp found d membership
    | some other =>
      have same : other.id = d.id := by simpa using List.find?_some found
      rw [numbered.eq_of_id (List.mem_of_find?_eq_some found) membership same]

theorem session?_eq_some_iff (numbered : w.Numbered) {id : DocumentId} {session : Session τ} :
    w.session? id = some session ↔ ∃ d ∈ w.documents, d.id = id ∧ d.session = session := by
  simp [session?, numbered.find?_eq_some_iff, and_assoc]

end Numbered

/-! ## What comes of a command -/

theorem find?_eq_none_iff {id : DocumentId} :
    w.find? id = none ↔ ∀ d ∈ w.documents, d.id ≠ id := by
  simp [find?]

theorem close_value (w : Workspace τ) (id : DocumentId) :
    (w.close id).value =
      ((w.find? id).isSome, { w with documents := w.documents.filter (·.id != id) }) := by
  unfold close
  cases found : w.find? id with
  | some d => rfl
  | none =>
    have whole : w.documents.filter (·.id != id) = w.documents :=
      List.filter_eq_self.mpr fun d membership => by
        simpa using find?_eq_none_iff.mp found d membership
    rw [whole]
    rfl

theorem closeAll_value (w : Workspace τ) (ids : List DocumentId) :
    (w.closeAll ids).value =
      { w with documents := w.documents.filter fun d => !ids.contains d.id } := by
  induction ids generalizing w with
  | nil => simp [closeAll]
  | cons id rest ih =>
    simp only [closeAll, Traced.value_bind, close_value, ih, List.filter_filter]
    congr 2
    funext d
    by_cases here : d.id = id <;> simp [here]

theorem onSessions_value {α : Type} (f : Session τ → Traced (α × Session τ))
    (documents : List (OpenDocument τ)) :
    (onSessions f documents).value =
      (documents.map fun d => (d.id, (f d.session).value.1),
        documents.map fun d => { d with session := (f d.session).value.2 }) := by
  induction documents with
  | nil => rfl
  | cons d rest ih => simp [onSessions, ih]

end Workspace

variable [Tokenizer τ]

/-- A document after a command that does not close it. -/
def OpenDocument.step (c : Command) (d : OpenDocument τ) : OpenDocument τ :=
  { d with session := d.session.after (c.operation? d.id).toList }

theorem OpenDocument.step_idle {d : OpenDocument τ} {c : Command}
    (idle : c.operation? d.id = none) : d.step c = d := by
  rw [step, idle]
  rfl

theorem map_step_idle {documents : List (OpenDocument τ)} {c : Command}
    (idle : ∀ d ∈ documents, c.operation? d.id = none) : documents.map (.step c) = documents :=
  (List.map_congr_left fun d membership => OpenDocument.step_idle (idle d membership)).trans
    (List.map_id' documents)

namespace Workspace

variable {w : Workspace τ}

def apply (w : Workspace τ) : Command → Workspace τ
  | .openDocument language text => (w.openDocument language text).value.2
  | .close id => (w.close id).value.2
  | .edit id line text now => (w.edit id line text now).value.2
  | .poll now => (w.poll now).value.2
  | .reload settings => (w.reloadSettings settings).value.2

def after (w : Workspace τ) (cs : List Command) : Workspace τ := cs.foldl apply w

theorem after_concat (w : Workspace τ) (cs : List Command) (c : Command) :
    w.after (cs ++ [c]) = (w.after cs).apply c := by
  simp [after]

/-- The next document, after its first pass. -/
def newDocument (w : Workspace τ) (language text : String) (tokenizer : τ) : OpenDocument τ :=
  ⟨w.nextId, language, (Session.create w.settings tokenizer text).after [.refresh]⟩

/-- The document that a command opens. -/
def opened? (w : Workspace τ) : Command → Option (OpenDocument τ)
  | .openDocument language text =>
    if w.settings.isExcluded language then none
    else (w.provider language).map (w.newDocument language text)
  | .close _ | .edit .. | .poll _ | .reload _ => none

/-- A document is refused, and nothing changes, or it is the next one. -/
theorem openDocument_cases (w : Workspace τ) (language text : String) :
    (∃ e, (w.openDocument language text).value = (.error e, w) ∧
      w.opened? (.openDocument language text) = none) ∨
    ∃ tokenizer, w.provider language = some tokenizer ∧
      (w.openDocument language text).value =
        (.ok w.nextId,
          { w with
            nextId := w.nextId + 1
            documents := w.documents ++ [w.newDocument language text tokenizer] }) ∧
      w.opened? (.openDocument language text) = some (w.newDocument language text tokenizer) := by
  by_cases excluded : w.settings.isExcluded language = true
  · simp only [openDocument, opened?, if_pos excluded]
    exact .inl ⟨_, rfl, trivial⟩
  · simp only [openDocument, opened?, if_neg excluded]
    cases provided : w.provider language with
    | none => exact .inl ⟨_, rfl, rfl⟩
    | some tokenizer => exact .inr ⟨tokenizer, rfl, rfl, rfl⟩

theorem openDocument_refused {language text : String} {e : OpenError}
    (answer : (w.openDocument language text).value.1 = .error e) :
    (w.openDocument language text).value.2 = w := by
  rcases w.openDocument_cases language text with ⟨e', refused, -⟩ | ⟨tokenizer, -, added, -⟩
  · rw [refused]
  · rw [added] at answer
    cases answer

theorem edit_value (numbered : w.Numbered) (id : DocumentId) (line : Nat) (text : String)
    (now : Nat) :
    (w.edit id line text now).value =
      ((w.session? id).bind fun s => (s.edit line text now).value.1,
        { w with documents := w.documents.map (.step (.edit id line text now)) }) := by
  have other : ∀ d : OpenDocument τ, d.id ≠ id →
      (Command.edit id line text now).operation? d.id = none :=
    fun d apart => if_neg apart.symm
  cases found : w.session? id with
  | none =>
    have absent := find?_eq_none_iff.mp (Option.map_eq_none_iff.mp found)
    rw [map_step_idle fun d membership => other d (absent d membership)]
    simp [edit, onSession, found]
  | some session =>
    obtain ⟨d, membership, rfl, rfl⟩ := numbered.session?_eq_some_iff.mp found
    have same : (w.setSession d.id (d.session.edit line text now).value.2).documents =
        w.documents.map (.step (.edit d.id line text now)) := by
      refine List.map_congr_left fun d' membership' => ?_
      by_cases here : d'.id = d.id
      · rw [if_pos here, numbered.eq_of_id membership' membership here]
        simp [OpenDocument.step, Command.operation?, Session.after, Session.apply]
      · rw [if_neg here, OpenDocument.step_idle (other d' here)]
    rw [← same]
    simp [edit, onSession, found, setSession]

theorem poll_value (w : Workspace τ) (now : Nat) :
    (w.poll now).value =
      (w.documents.filterMap fun d => (d.session.poll now).value.1.map fun o => (d.id, o),
        { w with documents := w.documents.map (.step (.poll now)) }) := by
  simp only [poll, Traced.value_bind, onSessions_value, List.filterMap_map]
  rfl

theorem mem_poll_iff (numbered : w.Numbered) {now : Nat} {id : DocumentId} {outcome : PassOutcome} :
    (id, outcome) ∈ (w.poll now).value.1 ↔
      ∃ session, w.session? id = some session ∧ (session.poll now).value.1 = some outcome := by
  simp only [poll_value, List.mem_filterMap, Option.map_eq_some_iff, Prod.mk.injEq,
    numbered.session?_eq_some_iff]
  constructor
  · rintro ⟨d, membership, o, ran, rfl, rfl⟩
    exact ⟨d.session, ⟨d, membership, rfl, rfl⟩, ran⟩
  · rintro ⟨_, ⟨d, membership, rfl, rfl⟩, ran⟩
    exact ⟨d, membership, outcome, ran, rfl, rfl⟩

/-- The outcomes of a poll come in the order of the documents. -/
theorem pairwise_poll (numbered : w.Numbered) (now : Nat) :
    ((w.poll now).value.1.map (·.1)).Pairwise (· < ·) := by
  have ascending := List.pairwise_map.mp numbered.ascending
  rw [poll_value, List.pairwise_map, List.pairwise_filterMap]
  refine ascending.imp fun {d d'} before => ?_
  intro ran result ran' result'
  obtain ⟨_, -, rfl⟩ := Option.map_eq_some_iff.mp result
  obtain ⟨_, -, rfl⟩ := Option.map_eq_some_iff.mp result'
  exact before

theorem reloadSettings_value (numbered : w.Numbered) (settings : Settings) :
    (w.reloadSettings settings).value =
      ((w.documents.filter fun d => settings.isExcluded d.language).map (·.id),
        { w with
          settings
          documents := (w.documents.filter fun d => !settings.isExcluded d.language).map
            (.step (.reload settings)) }) := by
  have kept : w.documents.filter (fun d => !((w.documents.filter fun d =>
      settings.isExcluded d.language).map (·.id)).contains d.id) =
        w.documents.filter fun d => !settings.isExcluded d.language := by
    refine List.filter_congr fun d membership => congrArg not ?_
    rw [Bool.eq_iff_iff, List.contains_iff_mem, List.mem_map]
    constructor
    · rintro ⟨d', excluded, same⟩
      obtain ⟨membership', excluded⟩ := List.mem_filter.mp excluded
      rwa [numbered.eq_of_id membership' membership same] at excluded
    · intro excluded
      exact ⟨d, List.mem_filter.mpr ⟨membership, excluded⟩, rfl⟩
  simp only [reloadSettings, Traced.value_bind, closeAll_value, onSessions_value, kept]
  rfl

/-! ## One command -/

/-- All that a command changes. -/
theorem apply_eq (numbered : w.Numbered) (c : Command) :
    w.apply c =
      { w with
        settings := c.settingsAfter w.settings
        nextId := w.nextId + (w.opened? c).toList.length
        documents := (w.documents.filter fun d => !c.closes d.id d.language).map (.step c) ++
          (w.opened? c).toList } := by
  cases c with
  | openDocument language text =>
    have idle : w.documents.map (.step (.openDocument language text)) = w.documents :=
      map_step_idle fun _ _ => rfl
    rcases w.openDocument_cases language text with ⟨e, refused, none⟩ | ⟨tokenizer, -, added, some⟩
    · simp [apply, refused, none, Command.closes, Command.settingsAfter, idle]
    · simp [apply, added, some, Command.closes, Command.settingsAfter, idle]
  | close id =>
    have closed : w.documents.filter (fun d => !(Command.close id).closes d.id d.language) =
        w.documents.filter (·.id != id) := by
      refine List.filter_congr fun d _ => ?_
      by_cases here : id = d.id <;> simp [Command.closes, here, Ne.symm]
    rw [closed, map_step_idle fun _ _ => rfl]
    simp [apply, close_value, Command.settingsAfter, opened?]
  | edit id line text now =>
    simp [apply, edit_value numbered, Command.closes, Command.settingsAfter, opened?]
  | poll now => simp [apply, poll_value, Command.closes, Command.settingsAfter, opened?]
  | reload settings =>
    simp [apply, reloadSettings_value numbered, Command.closes, Command.settingsAfter, opened?]

theorem mem_documents_apply (numbered : w.Numbered) {c : Command} {d : OpenDocument τ} :
    d ∈ (w.apply c).documents ↔
      (∃ d' ∈ w.documents, c.closes d'.id d'.language = false ∧ d'.step c = d) ∨
        w.opened? c = some d := by
  simp [apply_eq numbered, and_assoc]

theorem opened?_eq_some_iff {c : Command} {d : OpenDocument τ} :
    w.opened? c = some d ↔ ∃ text tokenizer, c = .openDocument d.language text ∧
      (w.openDocument d.language text).value.1 = .ok d.id ∧
      w.provider d.language = some tokenizer ∧
      d.session = (Session.create w.settings tokenizer text).after [.refresh] := by
  constructor
  · intro opened
    cases c with
    | openDocument language text =>
      rcases w.openDocument_cases language text with
        ⟨-, -, none⟩ | ⟨tokenizer, provided, added, some⟩
      · cases none.symm.trans opened
      · cases some.symm.trans opened
        exact ⟨text, tokenizer, rfl, congrArg Prod.fst added, provided, rfl⟩
    | _ => cases opened
  · rintro ⟨text, tokenizer, rfl, answer, provided, session⟩
    rcases w.openDocument_cases d.language text with
      ⟨e, refused, -⟩ | ⟨tokenizer', provided', added, some⟩
    · rw [refused] at answer
      cases answer
    · rw [added] at answer
      cases provided.symm.trans provided'
      rw [some, newDocument, ← session, Except.ok.inj answer]

theorem opened?_id {c : Command} {d : OpenDocument τ} (opened : w.opened? c = some d) :
    d.id = w.nextId := by
  obtain ⟨text, tokenizer, rfl, answer, -⟩ := opened?_eq_some_iff.mp opened
  rcases w.openDocument_cases d.language text with ⟨e, refused, -⟩ | ⟨tokenizer', -, added, -⟩
  · rw [refused] at answer
    cases answer
  · rw [added] at answer
    exact (Except.ok.inj answer).symm

theorem Numbered.apply (numbered : w.Numbered) (c : Command) : (w.apply c).Numbered := by
  constructor
  case ascending =>
    rw [ids, apply_eq numbered, List.map_append, List.map_map]
    refine List.pairwise_append.mpr ⟨numbered.ascending.sublist (List.filter_sublist.map _), ?_, ?_⟩
    · cases w.opened? c <;> simp
    · intro old inOld new inNew
      obtain ⟨d, membership, rfl⟩ := List.mem_map.mp inOld
      obtain ⟨d', opened, rfl⟩ := List.mem_map.mp inNew
      rw [opened?_id (Option.mem_toList.mp opened)]
      exact numbered.below d (List.mem_filter.mp membership).1
  case below =>
    intro d membership
    rw [apply_eq numbered]
    rcases (mem_documents_apply numbered).mp membership with ⟨d', old, -, rfl⟩ | opened
    · exact Nat.lt_add_right _ (numbered.below d' old)
    · rw [opened?_id opened, opened]
      exact Nat.lt_succ_self _

theorem Numbered.after (numbered : w.Numbered) (cs : List Command) : (w.after cs).Numbered := by
  induction cs generalizing w with
  | nil => exact numbered
  | cons c rest ih => exact ih (numbered.apply c)

end Workspace

end BracketColoring

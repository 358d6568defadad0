import BracketColoring.Proofs.Workspace.Product

/-!
# Open documents and shared settings

The documents of a workspace run under its settings, and none of them is in a language that these
exclude (`Governed`); every command keeps this, a change of settings because it closes documents
before the others start over. Numbers are issued in order and stay issued when their documents are
closed (`issued_eq_range`).
-/

namespace BracketColoring

variable {τ : Type}

/-- The settings that an operation brings. -/
def Operation.newSettings? : Operation → Option Settings
  | .setSettings settings => some settings
  | .subscribe _ | .edit .. | .poll _ | .flush | .refresh => none

namespace Session

/-- A session has the given settings, and its scheduler waits as long as they say. -/
structure RunsUnder (settings : Settings) (s : Session τ) : Prop where
  same : s.settings = settings
  delay : s.scheduler.delay = settings.debounce

variable {settings : Settings} {s : Session τ}

theorem RunsUnder.prepare (under : s.RunsUnder settings) (op : Operation) :
    (s.prepare op).2.RunsUnder (op.newSettings?.getD settings) := by
  cases op with
  | subscribe id => exact ⟨under.same, under.delay⟩
  | edit line text now =>
    have noted := (s.scheduler.delay_noteEdit line now).trans under.delay
    simp only [Session.prepare]
    split <;> exact ⟨under.same, noted⟩
  | poll now => exact ⟨under.same, (s.scheduler.delay_poll now).trans under.delay⟩
  | flush => exact ⟨under.same, under.delay⟩
  | refresh => exact ⟨under.same, under.delay⟩
  | setSettings settings => exact ⟨rfl, rfl⟩

variable [Tokenizer τ]

theorem RunsUnder.apply (under : s.RunsUnder settings) (op : Operation) :
    (s.apply op).value.2.RunsUnder (op.newSettings?.getD settings) := by
  have prepared := under.prepare op
  rw [apply_value]
  cases (s.prepare op).1 with
  | none => exact prepared
  | some dirty =>
    refine ⟨?_, ?_⟩
    · rw [runPass?, settings_runPass]
      exact prepared.same
    · rw [runPass?, scheduler_runPass]
      exact prepared.delay

/-- A new session keeps its settings in the first pass. -/
theorem RunsUnder.refresh_create (settings : Settings) (tokenizer : τ) (text : String) :
    ((create settings tokenizer text).after [.refresh]).RunsUnder settings :=
  RunsUnder.apply (s := create settings tokenizer text) ⟨rfl, rfl⟩ .refresh

end Session

namespace Workspace

open Session (RunsUnder)

variable [Tokenizer τ] {w : Workspace τ}

/-! ## Opening a document -/

theorem answer_openDocument (w : Workspace τ) (language text : String) :
    (w.openDocument language text).value.1 =
      if language ∈ w.settings.excluded then .error (.excluded language)
      else (w.provider language).elim (.error (.unsupported language)) fun _ => .ok w.nextId := by
  by_cases excluded : language ∈ w.settings.excluded
  · simp [openDocument, Settings.isExcluded, excluded]
  · cases provided : w.provider language <;>
      simp [openDocument, Settings.isExcluded, excluded, provided]

theorem openDocument_excluded_iff {language text : String} :
    (w.openDocument language text).value.1 = .error (.excluded language) ↔
      language ∈ w.settings.excluded := by
  rw [answer_openDocument]
  by_cases excluded : language ∈ w.settings.excluded
  · simp [excluded]
  · cases w.provider language <;> simp [excluded]

theorem openDocument_unsupported_iff {language text : String} :
    (w.openDocument language text).value.1 = .error (.unsupported language) ↔
      language ∉ w.settings.excluded ∧ w.provider language = none := by
  rw [answer_openDocument]
  by_cases excluded : language ∈ w.settings.excluded
  · simp [excluded]
  · cases w.provider language <;> simp [excluded]

theorem openDocument_ok_iff {language text : String} {id : DocumentId} :
    (w.openDocument language text).value.1 = .ok id ↔
      language ∉ w.settings.excluded ∧ (w.provider language).isSome ∧ id = w.nextId := by
  rw [answer_openDocument]
  by_cases excluded : language ∈ w.settings.excluded
  · simp [excluded]
  · cases w.provider language <;> simp [excluded, eq_comm]

/-! ## Numbers -/

/-- The number that a command gives to a document. -/
def issued? (w : Workspace τ) : Command → Option DocumentId
  | .openDocument language text => (w.openDocument language text).value.1.toOption
  | .close _ | .edit .. | .poll _ | .reload _ => none

/-- The numbers that some commands give to documents, in order. -/
def issued (w : Workspace τ) : List Command → List DocumentId
  | [] => []
  | c :: rest => (w.issued? c).toList ++ (w.apply c).issued rest

theorem issued?_eq (w : Workspace τ) (c : Command) :
    w.issued? c = (w.opened? c).map (·.id) := by
  cases c with
  | openDocument language text =>
    rcases w.openDocument_cases language text with ⟨e, refused, none⟩ | ⟨tokenizer, -, added, some⟩
    · rw [issued?, refused, none]
      rfl
    · rw [issued?, added, some]
      rfl
  | _ => rfl

theorem issued_concat (w : Workspace τ) (cs : List Command) (c : Command) :
    w.issued (cs ++ [c]) = w.issued cs ++ ((w.after cs).issued? c).toList := by
  induction cs generalizing w with
  | nil => simp [issued, after]
  | cons first rest ih => simp [issued, ih, after]

/-- The numbers of some commands to a new workspace are those below the next one, in order. -/
theorem issued_eq_range (settings : Settings) (provider : String → Option τ) (cs : List Command) :
    (create settings provider).issued cs =
      List.range ((create settings provider).after cs).nextId := by
  induction cs using List.reverseRecOn with
  | nil => rfl
  | append_singleton cs c ih =>
    have numbered := (numbered_create settings provider).after cs
    rw [issued_concat, ih, issued?_eq, after_concat, apply_eq numbered]
    cases opened : ((create settings provider).after cs).opened? c with
    | none => simp
    | some d => simp [opened?_id opened, List.range_succ]

/-! ## The invariant -/

/-- The documents run under the settings of the workspace, which exclude none of their languages. -/
structure Governed (w : Workspace τ) : Prop where
  admitted : ∀ d ∈ w.documents, d.language ∉ w.settings.excluded
  shared : ∀ d ∈ w.documents, d.session.RunsUnder w.settings

omit [Tokenizer τ] in
theorem governed_create (settings : Settings) (provider : String → Option τ) :
    (create settings provider).Governed :=
  ⟨by simp [create], by simp [create]⟩

/-- A command that does not close a document leaves it under the settings that are then in force. -/
theorem runsUnder_step {d : OpenDocument τ} (under : d.session.RunsUnder w.settings) (c : Command) :
    (d.step c).session.RunsUnder (c.settingsAfter w.settings) := by
  cases c with
  | openDocument language text => exact under
  | close id => exact under
  | edit id line text now =>
    simp only [OpenDocument.step, Command.operation?]
    split
    · exact under.apply (.edit line text now)
    · exact under
  | poll now => exact under.apply (.poll now)
  | reload settings => exact under.apply (.setSettings settings)

omit [Tokenizer τ] in
theorem not_mem_excluded_of_kept {c : Command} {id : DocumentId} {language : String}
    (admitted : language ∉ w.settings.excluded) (kept : c.closes id language = false) :
    language ∉ (c.settingsAfter w.settings).excluded := by
  cases c with
  | reload settings => simpa [Command.closes, Settings.isExcluded, Command.settingsAfter] using kept
  | _ => exact admitted

theorem Governed.apply (governed : w.Governed) (numbered : w.Numbered) (c : Command) :
    (w.apply c).Governed := by
  have inForce : (w.apply c).settings = c.settingsAfter w.settings := by rw [apply_eq numbered]
  constructor
  case admitted =>
    intro d membership
    rw [inForce]
    rcases (mem_documents_apply numbered).mp membership with ⟨d', old, kept, rfl⟩ | opened
    · exact not_mem_excluded_of_kept (governed.admitted d' old) kept
    · obtain ⟨text, tokenizer, rfl, answer, -⟩ := opened?_eq_some_iff.mp opened
      exact (openDocument_ok_iff.mp answer).1
  case shared =>
    intro d membership
    rw [inForce]
    rcases (mem_documents_apply numbered).mp membership with ⟨d', old, -, rfl⟩ | opened
    · exact runsUnder_step (governed.shared d' old) c
    · obtain ⟨text, tokenizer, rfl, -, -, session⟩ := opened?_eq_some_iff.mp opened
      rw [session]
      exact RunsUnder.refresh_create _ tokenizer text

theorem Governed.after (governed : w.Governed) (numbered : w.Numbered) (cs : List Command) :
    (w.after cs).Governed := by
  induction cs generalizing w with
  | nil => exact governed
  | cons c rest ih => exact ih (governed.apply numbered c) (numbered.apply c)

/-! ## New settings -/

theorem ids_reloadSettings (numbered : w.Numbered) (new : Settings) :
    (w.reloadSettings new).value.2.ids =
      (w.documents.filter fun d => !new.isExcluded d.language).map (·.id) := by
  rw [reloadSettings_value numbered, ids, List.map_map]
  rfl

theorem mem_reloadSettings_iff (numbered : w.Numbered) {new : Settings} {id : DocumentId} :
    id ∈ (w.reloadSettings new).value.1 ↔
      ∃ d ∈ w.documents, d.id = id ∧ d.language ∈ new.excluded := by
  simp [reloadSettings_value numbered, Settings.isExcluded, and_assoc, and_comm]

/-- The documents that new settings close are those that are no longer open. -/
theorem mem_reloadSettings_iff_closed (numbered : w.Numbered) {new : Settings} {id : DocumentId} :
    id ∈ (w.reloadSettings new).value.1 ↔
      id ∈ w.ids ∧ id ∉ (w.reloadSettings new).value.2.ids := by
  rw [mem_reloadSettings_iff numbered, ids_reloadSettings numbered]
  constructor
  · rintro ⟨d, membership, rfl, excluded⟩
    refine ⟨List.mem_map_of_mem membership, fun stays => ?_⟩
    obtain ⟨d', kept, same⟩ := List.mem_map.mp stays
    obtain ⟨membership', allowed⟩ := List.mem_filter.mp kept
    rw [numbered.eq_of_id membership' membership same] at allowed
    simp [Settings.isExcluded, excluded] at allowed
  · rintro ⟨isOpen, gone⟩
    obtain ⟨d, membership, rfl⟩ := List.mem_map.mp isOpen
    refine ⟨d, membership, rfl, ?_⟩
    by_contra allowed
    exact gone (List.mem_map_of_mem (List.mem_filter.mpr
      ⟨membership, by simpa [Settings.isExcluded] using allowed⟩))

/-- What holds of a workspace when some numbers have been issued in it. -/
structure Registry (provider : String → Option τ) (issued : List DocumentId) (w : Workspace τ) :
    Prop where
  governed : w.Governed
  increasing : issued.Pairwise (· < ·)
  known : ∀ id ∈ w.ids, id ∈ issued
  fresh : ∀ language text id, (w.openDocument language text).value.1 = .ok id →
    ∀ earlier ∈ issued, earlier < id
  excluded : ∀ language text,
    (w.openDocument language text).value.1 = .error (.excluded language) ↔
      language ∈ w.settings.excluded
  unsupported : ∀ language text,
    (w.openDocument language text).value.1 = .error (.unsupported language) ↔
      language ∉ w.settings.excluded ∧ provider language = none
  opens : ∀ language text, (∃ id, (w.openDocument language text).value.1 = .ok id) ↔
    language ∉ w.settings.excluded ∧ (provider language).isSome
  refused : ∀ language text e, (w.openDocument language text).value.1 = .error e →
    (w.openDocument language text).value.2 = w
  reloads : ∀ new, (w.reloadSettings new).value.2.settings = new
  ascending : ∀ new, (w.reloadSettings new).value.1.Pairwise (· < ·)
  closes : ∀ new id, id ∈ (w.reloadSettings new).value.1 ↔
    ∃ language, w.language? id = some language ∧ language ∈ new.excluded
  closed : ∀ new id, id ∈ (w.reloadSettings new).value.1 ↔
    id ∈ w.ids ∧ id ∉ (w.reloadSettings new).value.2.ids

theorem registry_after (settings : Settings) (provider : String → Option τ) (cs : List Command) :
    Registry provider ((create settings provider).issued cs)
      ((create settings provider).after cs) := by
  have numbered := (numbered_create settings provider).after cs
  have offers := (settings_after (numbered_create settings provider) cs).2
  rw [issued_eq_range]
  constructor
  case governed =>
    exact (governed_create settings provider).after (numbered_create settings provider) cs
  case increasing => exact List.pairwise_lt_range
  case known =>
    intro id isOpen
    obtain ⟨d, membership, rfl⟩ := List.mem_map.mp isOpen
    exact List.mem_range.mpr (numbered.below d membership)
  case fresh =>
    intro language text id answer earlier before
    rw [(openDocument_ok_iff.mp answer).2.2]
    exact List.mem_range.mp before
  case excluded => exact fun language text => openDocument_excluded_iff
  case unsupported =>
    intro language text
    rw [openDocument_unsupported_iff, offers]
    rfl
  case opens =>
    intro language text
    simp only [openDocument_ok_iff, offers]
    constructor
    · rintro ⟨id, allowed, offered, -⟩
      exact ⟨allowed, offered⟩
    · rintro ⟨allowed, offered⟩
      exact ⟨_, allowed, offered, rfl⟩
  case refused => exact fun language text e => openDocument_refused
  case reloads =>
    intro new
    rw [reloadSettings_value numbered]
  case ascending =>
    intro new
    rw [reloadSettings_value numbered]
    exact numbered.ascending.sublist (List.filter_sublist.map _)
  case closes =>
    intro new id
    rw [mem_reloadSettings_iff numbered]
    simp only [language?, Option.map_eq_some_iff, numbered.find?_eq_some_iff]
    constructor
    · rintro ⟨d, membership, same, excluded⟩
      exact ⟨d.language, ⟨d, ⟨membership, same⟩, rfl⟩, excluded⟩
    · rintro ⟨_, ⟨d, ⟨membership, same⟩, rfl⟩, excluded⟩
      exact ⟨d, membership, same, excluded⟩
  case closed => exact fun new id => mem_reloadSettings_iff_closed numbered

end Workspace

end BracketColoring

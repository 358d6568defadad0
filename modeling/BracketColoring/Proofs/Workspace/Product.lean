import BracketColoring.Proofs.Workspace.Command

/-!
# A workspace as independent sessions

After any commands the session of an open document is one that stands alone: created where the
document was opened, refreshed, and given what was addressed to the document since then. Commands to
other documents leave no trace in it (`after_product`).
-/

namespace BracketColoring

variable {τ : Type} [Tokenizer τ]

/-- The settings in force after some commands. -/
def settingsAfter (settings : Settings) (cs : List Command) : Settings :=
  cs.foldl Command.settingsAfter settings

/-- What some commands do to the session of a document that they do not close. -/
def addressed (id : DocumentId) (cs : List Command) : List Operation :=
  cs.filterMap (Command.operation? id)

theorem addressed_concat (id : DocumentId) (cs : List Command) (c : Command) :
    addressed id (cs ++ [c]) = addressed id cs ++ (c.operation? id).toList := by
  rw [addressed, List.filterMap_append]
  cases found : c.operation? id <;> simp [addressed, found]

namespace Workspace

/-- One of some commands has opened a document and no later one has closed it. Its session is as if
there had been no other document. -/
inductive Stands (settings : Settings) (provider : String → Option τ) (cs : List Command)
    (d : OpenDocument τ) : Prop
  | alone (before : List Command) (text : String) (later : List Command) (tokenizer : τ)
      (split : cs = before ++ .openDocument d.language text :: later)
      (answer : (((create settings provider).after before).openDocument d.language text).value.1 =
        .ok d.id)
      (provided : provider d.language = some tokenizer)
      (kept : ∀ c ∈ later, c.closes d.id d.language = false)
      (session : d.session = (Session.create (settingsAfter settings before) tokenizer text).after
        (.refresh :: addressed d.id later))

/-- The documents of a workspace are those that some commands have opened, each on its own, and
further commands go to their sessions and to nothing else. -/
structure Product (settings : Settings) (provider : String → Option τ) (cs : List Command)
    (w : Workspace τ) : Prop where
  sessions : ∀ (id : DocumentId) (session : Session τ), w.session? id = some session ↔
    ∃ language, Stands settings provider cs ⟨id, language, session⟩
  edited : ∀ (id : DocumentId) (session : Session τ), w.session? id = some session →
    ∀ line text now, (w.edit id line text now).value.1 = (session.edit line text now).value.1
  polled : ∀ (now : Nat) (id : DocumentId) (outcome : PassOutcome),
    (id, outcome) ∈ (w.poll now).value.1 ↔
      ∃ session, w.session? id = some session ∧ (session.poll now).value.1 = some outcome
  ascending : ∀ now, ((w.poll now).value.1.map (·.1)).Pairwise (· < ·)
  unknown : ∀ id, w.session? id = none → (w.close id).value = (false, w) ∧
    ∀ line text now, (w.edit id line text now).value = (none, w)
  refused : ∀ language text e, (w.openDocument language text).value.1 = .error e →
    (w.openDocument language text).value.2 = w

variable {settings : Settings} {provider : String → Option τ} {cs : List Command} {w : Workspace τ}

/-! ## Runs -/

theorem settings_after (numbered : w.Numbered) (cs : List Command) :
    (w.after cs).settings = settingsAfter w.settings cs ∧ (w.after cs).provider = w.provider := by
  induction cs using List.reverseRecOn with
  | nil => exact ⟨rfl, rfl⟩
  | append_singleton cs c ih =>
    rw [after_concat, apply_eq (numbered.after cs), settingsAfter, List.foldl_concat, ih.1]
    exact ⟨rfl, ih.2⟩

theorem Stands.of_opened {c : Command} {d : OpenDocument τ}
    (opened : ((create settings provider).after cs).opened? c = some d) :
    Stands settings provider (cs ++ [c]) d := by
  obtain ⟨inForce, offers⟩ := settings_after (numbered_create settings provider) cs
  obtain ⟨text, tokenizer, rfl, answer, provided, session⟩ := opened?_eq_some_iff.mp opened
  rw [offers] at provided
  rw [inForce] at session
  exact ⟨cs, text, [], tokenizer, rfl, answer, provided, by simp, session⟩

theorem Stands.step {c : Command} {d : OpenDocument τ} (stands : Stands settings provider cs d)
    (kept : c.closes d.id d.language = false) :
    Stands settings provider (cs ++ [c]) (d.step c) := by
  obtain ⟨before, text, later, tokenizer, rfl, answer, provided, keeps, session⟩ := stands
  refine ⟨before, text, later ++ [c], tokenizer, by simp [OpenDocument.step], answer, provided, ?_, ?_⟩
  · intro c' membership
    rcases List.mem_append.mp membership with earlier | last
    · exact keeps c' earlier
    · rw [List.mem_singleton.mp last]
      exact kept
  · simp only [OpenDocument.step]
    rw [session, ← Session.after_append, addressed_concat]
    rfl

/-- A document that stands after a command was opened by it, or stood before. -/
theorem Stands.cases_concat {c : Command} {d : OpenDocument τ}
    (stands : Stands settings provider (cs ++ [c]) d) :
    ((create settings provider).after cs).opened? c = some d ∨
      ∃ d', Stands settings provider cs d' ∧ c.closes d'.id d'.language = false ∧ d'.step c = d := by
  obtain ⟨inForce, offers⟩ := settings_after (numbered_create settings provider) cs
  obtain ⟨before, text, later, tokenizer, split, answer, provided, kept, session⟩ := stands
  rcases later.eq_nil_or_concat' with rfl | ⟨earlier, last, rfl⟩
  · obtain ⟨rfl, command⟩ := List.append_inj' split rfl
    cases command
    refine .inl (opened?_eq_some_iff.mpr ⟨text, tokenizer, rfl, answer, ?_, ?_⟩)
    · rwa [offers]
    · rwa [inForce]
  · rw [← List.cons_append, ← List.append_assoc] at split
    obtain ⟨rfl, command⟩ := List.append_inj' split rfl
    cases command
    let d' : OpenDocument τ := ⟨d.id, d.language,
      (Session.create (settingsAfter settings before) tokenizer text).after
        (.refresh :: addressed d.id earlier)⟩
    have stood : Stands settings provider (before ++ .openDocument d.language text :: earlier) d' :=
      ⟨before, text, earlier, tokenizer, rfl, answer, provided,
        fun c' membership => kept c' (List.mem_append_left _ membership), rfl⟩
    refine .inr ⟨d', stood, kept c (by simp), ?_⟩
    rw [addressed_concat, ← List.cons_append, Session.after_append] at session
    simp only [OpenDocument.step, d', ← session]

theorem mem_documents_after {d : OpenDocument τ} :
    d ∈ ((create settings provider).after cs).documents ↔ Stands settings provider cs d := by
  induction cs using List.reverseRecOn generalizing d with
  | nil =>
    constructor
    · intro membership
      cases membership
    · rintro ⟨before, text, later, tokenizer, split, -⟩
      simp at split
  | append_singleton cs c ih =>
    rw [after_concat, mem_documents_apply ((numbered_create settings provider).after cs)]
    constructor
    · rintro (⟨d', old, kept, rfl⟩ | opened)
      · exact (ih.mp old).step kept
      · exact .of_opened opened
    · intro stands
      rcases stands.cases_concat with opened | ⟨d', stood, kept, rfl⟩
      · exact .inr opened
      · exact .inl ⟨d', ih.mpr stood, kept, rfl⟩

theorem after_product (settings : Settings) (provider : String → Option τ) (cs : List Command) :
    Product settings provider cs ((create settings provider).after cs) := by
  have numbered := (numbered_create settings provider).after cs
  constructor
  case sessions =>
    intro id session
    rw [numbered.session?_eq_some_iff]
    constructor
    · rintro ⟨d, membership, rfl, rfl⟩
      exact ⟨d.language, mem_documents_after.mp membership⟩
    · rintro ⟨language, stands⟩
      exact ⟨_, mem_documents_after.mpr stands, rfl, rfl⟩
  case edited =>
    intro id session present line text now
    rw [edit_value numbered, present]
    rfl
  case polled =>
    intro now id outcome
    exact mem_poll_iff numbered
  case ascending => exact pairwise_poll numbered
  case unknown =>
    intro id absent
    have none := Option.map_eq_none_iff.mp absent
    constructor
    · rw [close, none]
      rfl
    · intro line text now
      rw [edit, onSession, absent]
      rfl
  case refused =>
    intro language text e answer
    exact openDocument_refused answer

end Workspace

end BracketColoring

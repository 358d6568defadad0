import BracketColoring.Proofs.Session.Incremental

/-!
# Edits that run at once

Without a delay every edit runs a pass. With a tokenizer that never fails, a session that was up to
date before an edit is up to date after it exactly when the edit leaves the brackets on the kept
lines as they are. Whether the text of these lines is left as it is does not decide this: a region
may begin on a kept line and end, or fail to end, on a line below.
-/

namespace BracketColoring

/-- An edit: the line it starts on, the text after it, and when it was made. -/
structure Edit where
  line : Nat
  text : String
  now : Nat
deriving DecidableEq, Repr

namespace Session

variable {τ : Type} [Tokenizer τ]

def edited (s : Session τ) (e : Edit) : Session τ := (s.edit e.line e.text e.now).value.2

/-- A new session after its first pass. -/
def refreshed (settings : Settings) (tokenizer : τ) (text : String) : Session τ :=
  (create settings tokenizer text).refresh.value.2

/-- A session shows what a new session of its settings and its text shows. -/
def AgreesWithFresh (fresh : τ) (s : Session τ) : Prop :=
  let r := refreshed s.settings fresh s.text
  s.cache = r.cache ∧ s.colors = r.colors ∧ s.pairs = r.pairs

def AgreesAfterEach (fresh : τ) (s : Session τ) : List Edit → Prop
  | [] => True
  | e :: rest => (s.edited e).AgreesWithFresh fresh ∧ AgreesAfterEach fresh (s.edited e) rest

/-- A tokenizer that gives every text its tree, and does not change. -/
def Steady (tree : String → Token) (t : τ) : Prop :=
  ∀ text, Tokenizer.tokenize t text = (.ok (tree text), t)

/-- Nothing waits and nothing ever will, and the tokenizer is the given one. -/
structure Idle (t : τ) (s : Session τ) : Prop where
  tokenizer : s.tokenizer = t
  scheduler : s.scheduler = { delay := 0 }

def bracketsOn (tree : String → Token) (settings : Settings) (text : String) (line : Nat) :
    List Occurrence :=
  onLine ((tree text).occurrences settings.literals).occurrences line

/-- An edit leaves the brackets on the lines that are kept as they are. -/
def KeepsBrackets (tree : String → Token) (settings : Settings) (old : String) (e : Edit) : Prop :=
  ∀ i < min e.line (min (BracketColoring.lineCount old) (BracketColoring.lineCount e.text)),
    bracketsOn tree settings e.text i = bracketsOn tree settings old i

def AllKeepBrackets (tree : String → Token) (settings : Settings) (old : String) :
    List Edit → Prop
  | [] => True
  | e :: rest => KeepsBrackets tree settings old e ∧ AllKeepBrackets tree settings e.text rest

instance (tree : String → Token) (settings : Settings) (old : String) (e : Edit) :
    Decidable (KeepsBrackets tree settings old e) :=
  inferInstanceAs (Decidable (∀ i < _, _))

instance decidableAllKeepBrackets (tree : String → Token) (settings : Settings) :
    (old : String) → (edits : List Edit) → Decidable (AllKeepBrackets tree settings old edits)
  | _, [] => isTrue trivial
  | _, e :: rest =>
    have := decidableAllKeepBrackets tree settings e.text rest
    inferInstanceAs (Decidable (_ ∧ _))

variable {tree : String → Token} {t : τ} {settings : Settings} {s : Session τ}

theorem runPass_steady (steady : Steady tree t) (uses : s.tokenizer = t) (dirty : Nat) :
    (s.runPass dirty).value.2 =
      let cache := rebuild s.settings (s.keep dirty) (s.occurrences tree) s.lineCount
      { s with
        cache
        colors := cache.colorMap s.settings
        pairs := cache.pairIndex s.settings } := by
  have answer : Tokenizer.tokenize s.tokenizer s.text = (.ok (tree s.text), s.tokenizer) := by
    rw [uses]
    exact steady s.text
  rw [runPass_ok answer]
  rfl

/-- The first pass keeps nothing and builds every line. -/
theorem refreshed_eq (steady : Steady tree t) (settings : Settings) (text : String) :
    refreshed settings t text =
      let new := create settings t text
      let cache := rebuild settings (new.keep 0) (new.occurrences tree) new.lineCount
      { new with
        cache
        colors := cache.colorMap settings
        pairs := cache.pairIndex settings } :=
  runPass_steady steady rfl 0

/-- An edit replaces the text and rebuilds the lines from the edited one on. -/
theorem edited_eq (steady : Steady tree t) (idle : s.Idle t) (e : Edit) :
    s.edited e =
      let next : Session τ := { s with text := e.text }
      let cache := rebuild s.settings (next.keep e.line) (next.occurrences tree) next.lineCount
      { next with
        cache
        colors := cache.colorMap s.settings
        pairs := cache.pairIndex s.settings } := by
  have prepared : s.prepare (.edit e.line e.text e.now) =
      (some e.line, { s with text := e.text }) := by
    simp [prepare, idle.scheduler, Scheduler.noteEdit, Scheduler.take, Scheduler.reset]
  have applied := congrArg Prod.snd (s.apply_value (.edit e.line e.text e.now))
  rw [prepared] at applied
  exact applied.trans
    (runPass_steady (s := { s with text := e.text }) steady idle.tokenizer e.line)

omit [Tokenizer τ] in
theorem known_onLines (tree : String → Token) {s : Session τ} (valid : s.settings.Valid)
    (first count : Nat) :
    ∀ os ∈ onLines (s.occurrences tree) first count, ∀ o ∈ os, s.settings.Knows o.pair := by
  intro os listed o membership
  obtain ⟨line, -, rfl⟩ := List.mem_map.mp listed
  exact valid.knows_of_occurrence (mem_onLine.mp membership).1

omit [Tokenizer τ] in
/-- Rebuilding the lines from the edited one on gives the lines of the new text exactly when the
brackets on the lines above are the old ones. -/
theorem rebuild_eq_scratch_iff {s : Session τ} (valid : s.settings.Valid)
    (upToDate : s.cache = s.scratch tree) (e : Edit) :
    let next : Session τ := { s with text := e.text }
    rebuild s.settings (next.keep e.line) (next.occurrences tree) next.lineCount =
        next.scratch tree ↔ KeepsBrackets tree s.settings s.text e := by
  intro next
  have sorted := sorted_occurrences (s := next) tree valid
  let kept := min e.line (min s.lineCount next.lineCount)
  have keep : next.keep e.line = .ofLines s.settings (onLines (s.occurrences tree) 0 kept) := by
    have cache : next.cache = s.scratch tree := upToDate
    rw [keep, cache, scratch, LineCache.truncate_ofLines, LineCache.truncate_ofLines,
      take_onLines, take_onLines]
    congr 2
    omega
  obtain ⟨more, total⟩ : ∃ more, next.lineCount = kept + more :=
    Nat.exists_eq_add_of_le (by omega)
  have old := known_onLines tree (s := s) valid 0 kept
  have new := fun first count => known_onLines tree (s := next) valid first count
  have known : ∀ os ∈ onLines (s.occurrences tree) 0 kept ++
      onLines (next.occurrences tree) kept more, ∀ o ∈ os, s.settings.Knows o.pair := by
    intro os listed
    rcases List.mem_append.mp listed with above | below
    · exact old os above
    · exact new kept more os below
  rw [keep, LineCache.rebuild_ofLines _ _ _ sorted, scratch, length_onLines, total,
    Nat.add_sub_cancel_left]
  -- Both are caches of all lines, and equal just when they have the same occurrences on each.
  rw [LineCache.ofLines_inj known (new 0 (kept + more)), onLines_add, Nat.zero_add,
    List.append_left_inj, onLines_inj]
  constructor
  · intro same i above
    exact (same i (Nat.zero_le i) (by rwa [Nat.zero_add])).symm
  · intro keeps i _ above
    exact (keeps i (by rwa [Nat.zero_add] at above)).symm

theorem settings_refreshed (steady : Steady tree t) (settings : Settings) (text : String) :
    (refreshed settings t text).settings = settings := by
  rw [refreshed_eq steady]
  rfl

theorem text_refreshed (steady : Steady tree t) (settings : Settings) (text : String) :
    (refreshed settings t text).text = text := by
  rw [refreshed_eq steady]
  rfl

theorem idle_refreshed (steady : Steady tree t) (immediate : settings.debounce = 0)
    (text : String) : (refreshed settings t text).Idle t := by
  rw [refreshed_eq steady]
  exact ⟨rfl, by simp [create, immediate]⟩

theorem upToDate_refreshed (steady : Steady tree t) (valid : settings.Valid) (text : String) :
    (refreshed settings t text).UpToDate tree := by
  have start : InSync tree (some 0) (create settings t text) := .create valid t text
  rw [refreshed_eq steady]
  exact ⟨start.rebuild_keep, rfl, rfl⟩

theorem agreesWithFresh_iff (steady : Steady tree t) (valid : s.settings.Valid) :
    s.AgreesWithFresh t ↔ s.UpToDate tree := by
  have fresh := upToDate_refreshed steady valid s.text
  have sameSettings := settings_refreshed steady s.settings s.text
  have sameText := text_refreshed steady s.settings s.text
  constructor
  · rintro ⟨cache, colors, pairs⟩
    refine ⟨?_, ?_, ?_⟩
    · rw [cache, fresh.cache]
      simp only [scratch, occurrences, lineCount, sameSettings, sameText]
    · rw [colors, fresh.colors, cache, sameSettings]
    · rw [pairs, fresh.pairs, cache, sameSettings]
  · intro upToDate
    exact upToDate.agree fresh sameSettings.symm sameText.symm

theorem upToDate_edited_iff (steady : Steady tree t) (idle : s.Idle t) (valid : s.settings.Valid)
    (upToDate : s.UpToDate tree) (e : Edit) :
    (s.edited e).UpToDate tree ↔ KeepsBrackets tree s.settings s.text e := by
  rw [edited_eq steady idle]
  refine Iff.trans ?_ (rebuild_eq_scratch_iff valid upToDate.cache e)
  constructor
  · intro after
    exact after.cache
  · intro rebuilt
    exact ⟨rebuilt, rfl, rfl⟩

/-- An edit leaves nothing waiting, and the settings as they are. -/
theorem edited_frame (steady : Steady tree t) (idle : s.Idle t) (e : Edit) :
    (s.edited e).settings = s.settings ∧ (s.edited e).text = e.text ∧ (s.edited e).Idle t := by
  rw [edited_eq steady idle]
  exact ⟨rfl, rfl, idle.tokenizer, idle.scheduler⟩

theorem agreesAfterEach_iff (steady : Steady tree t) (idle : s.Idle t) (valid : s.settings.Valid)
    (upToDate : s.UpToDate tree) (edits : List Edit) :
    s.AgreesAfterEach t edits ↔ AllKeepBrackets tree s.settings s.text edits := by
  induction edits generalizing s with
  | nil => exact Iff.rfl
  | cons e rest ih =>
    obtain ⟨sameSettings, text, idleAfter⟩ := edited_frame steady idle e
    have validAfter : (s.edited e).settings.Valid := sameSettings ▸ valid
    have agrees : (s.edited e).AgreesWithFresh t ↔ KeepsBrackets tree s.settings s.text e :=
      (agreesWithFresh_iff steady validAfter).trans
        (upToDate_edited_iff steady idle valid upToDate e)
    rw [AgreesAfterEach, AllKeepBrackets, agrees]
    refine and_congr_right fun keeps => ?_
    have after := (upToDate_edited_iff steady idle valid upToDate e).mpr keeps
    have later := ih idleAfter validAfter after
    rwa [sameSettings, text] at later

theorem refreshed_agreesAfterEach_iff (steady : Steady tree t) (valid : settings.Valid)
    (immediate : settings.debounce = 0) (text : String) (edits : List Edit) :
    (refreshed settings t text).AgreesAfterEach t edits ↔
      AllKeepBrackets tree settings text edits := by
  have sameSettings := settings_refreshed steady settings text
  have idle := idle_refreshed steady immediate text
  have upToDate := upToDate_refreshed steady valid text
  have run := agreesAfterEach_iff steady idle (sameSettings.symm ▸ valid) upToDate edits
  rwa [sameSettings, text_refreshed steady settings] at run

/-- A session that has had no pass keeps no line, so that its first edit builds them all. -/
theorem upToDate_edited_create (steady : Steady tree t) (valid : settings.Valid)
    (immediate : settings.debounce = 0) (text : String) (e : Edit) :
    ((create settings t text).edited e).UpToDate tree := by
  have idle : (create settings t text).Idle t := ⟨rfl, by simp [create, immediate]⟩
  have start : InSync tree (some e.line) (create settings t e.text) := .create valid t e.text
  rw [edited_eq steady idle]
  exact ⟨start.rebuild_keep, rfl, rfl⟩

theorem create_agreesAfterEach (steady : Steady tree t) (valid : settings.Valid)
    (immediate : settings.debounce = 0) (text : String) {edits : List Edit}
    (keep : AllKeepBrackets tree settings text edits) :
    (create settings t text).AgreesAfterEach t edits := by
  cases edits with
  | nil => exact trivial
  | cons e rest =>
    have idle : (create settings t text).Idle t := ⟨rfl, by simp [create, immediate]⟩
    obtain ⟨sameSettings, sameText, idleAfter⟩ := edited_frame steady idle e
    have validAfter : ((create settings t text).edited e).settings.Valid :=
      sameSettings.symm ▸ valid
    have upToDate := upToDate_edited_create steady valid immediate text e
    refine ⟨(agreesWithFresh_iff steady validAfter).mpr upToDate, ?_⟩
    rw [agreesAfterEach_iff steady idleAfter validAfter upToDate, sameSettings, sameText]
    exact keep.2

end Session

end BracketColoring

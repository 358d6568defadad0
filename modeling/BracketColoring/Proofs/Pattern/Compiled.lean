import BracketColoring.Proofs.Pattern.Backtrack

/-!
# Compiled patterns

What a pattern matches first is said by recursion on it (`Pattern.tries`): given what comes of the
text behind a part, it is said what comes of the part. A pattern is compiled from its end in the same
way, so that the steps written for a part do what the part does, whatever stands behind it
(`Program.Writes`). Only a loop refers to itself. Since a turn of it reads something, there is one
thing only that can come of it (`eq_loop`).
-/

namespace BracketColoring

/-- What comes of a text, behind the groups that were gone through. -/
abbrev Outlook := List String → List Char → Option Ending

namespace Outlook

/-- Reads a character of a set. -/
def reading (s : CharSet) (next : Outlook) : Outlook
  | _, [] => none
  | names, c :: rest => if s.contains c then next names rest else none

def readingAll (text : List Char) (next : Outlook) : Outlook :=
  text.foldr (fun c => reading (.single c)) next

/-- Goes into a turn of a loop or leaves it, whichever is preferred. -/
def turning (greedy : Bool) (turn next : Outlook) : Outlook := fun names text =>
  if greedy then (turn names text).or (next names text) else (next names text).or (turn names text)

variable (part : Outlook → Outlook) (greedy : Bool)

/-- A part several times. -/
def several : Nat → Outlook → Outlook
  | 0, next => next
  | n + 1, next => several n (part next)

/-- A part at most a number of times; every turn may leave to `exit`. -/
def optional (exit : Outlook) : Nat → Outlook → Outlook
  | 0, next => next
  | n + 1, next => optional exit n (turning greedy (part next) exit)

/-- A part any number of times, as long as every turn reads something. -/
def loop (next : Outlook) (names : List String) (text : List Char) : Option Ending :=
  turning greedy
    (part fun names rest =>
      if _shorter : rest.length < text.length then loop next names rest else none)
    next names text
termination_by text.length

/-- The part reads at least a number of characters before it goes on. -/
def Reads (least : Nat) : Prop :=
  ∀ (next next' : Outlook) (names : List String) (text : List Char),
    (∀ names rest, rest.length + least ≤ text.length → next names rest = next' names rest) →
      part next names text = part next' names text

end Outlook

open Outlook

namespace Pattern

/-- What comes of a pattern, given what comes of the text behind it. -/
def tries : Pattern → Outlook → Outlook
  | empty, next => next
  | literal text, next => readingAll text next
  | set s, next => reading s next
  | check _, _ => fun _ _ => none
  | group none p, next => p.tries next
  | group (some name) p, next => p.tries fun names => next (addName name names)
  | repeated p least none greedy, next => several p.tries least (loop p.tries greedy next)
  | repeated p least (some most) greedy, next =>
    several p.tries least (optional p.tries greedy next (most - least) next)
  | seq a b, next => a.tries (b.tries next)
  | alt a b, next => fun names text => (a.tries next names text).or (b.tries next names text)

/-- There are no conditions in the pattern, and every turn of a loop without a bound reads
something. -/
def isSteady : Pattern → Bool
  | check _ => false
  | group _ p => p.isSteady
  | repeated p _ most _ => p.isSteady && (most.isSome || !p.mayBeEmpty)
  | seq a b => a.isSteady && b.isSteady
  | alt a b => a.isSteady && b.isSteady
  | _ => true

end Pattern

namespace Outlook

variable {part part' : Outlook → Outlook} {greedy : Bool} {least least' : Nat}

/-! ## Parts that read -/

theorem Reads.mono (reads : Reads part least) (less : least' ≤ least) : Reads part least' :=
  fun next next' names text agree =>
    reads next next' names text fun names rest shorter => agree names rest (by omega)

theorem Reads.comp (reads : Reads part least) (reads' : Reads part' least') :
    Reads (fun next => part (part' next)) (least + least') := by
  intro next next' names text agree
  refine reads _ _ names text fun names rest shorter => ?_
  exact reads' next next' names rest fun names rest shorter' => agree names rest (by omega)

theorem reads_id : Reads id 0 :=
  fun _ _ names text agree => agree names text (Nat.le_refl _)

theorem reads_reading (s : CharSet) : Reads (reading s) 1 := by
  intro next next' names text agree
  cases text with
  | nil => rfl
  | cons c rest => rw [reading, reading, agree names rest (Nat.le_refl _)]

theorem reads_readingAll (text : List Char) : Reads (readingAll text) text.length := by
  induction text with
  | nil => exact reads_id
  | cons c rest ih => exact ((reads_reading _).comp ih).mono (by simp [Nat.add_comm])

theorem reads_several (reads : Reads part least) (n : Nat) : Reads (several part n) (n * least) := by
  induction n with
  | zero =>
    rw [Nat.zero_mul]
    exact reads_id
  | succ n ih => exact (ih.comp reads).mono (Nat.le_of_eq (Nat.succ_mul n least))

/-- There is one thing only that can come of a loop. -/
theorem eq_loop (reads : Reads part 1) {around next : Outlook}
    (turns : ∀ names text, around names text = turning greedy (part around) next names text) :
    around = loop part greedy next := by
  funext names text
  induction size : text.length using Nat.strongRecOn generalizing names text with
  | _ size ih =>
    subst size
    have same : part around names text =
        part (fun names rest =>
          if _shorter : rest.length < text.length then loop part greedy next names rest else none)
          names text := by
      refine reads _ _ names text fun names rest shorter => ?_
      rw [dif_pos (Nat.lt_of_succ_le shorter)]
      exact ih rest.length shorter names rest rfl
    rw [turns, loop, turning, turning, same]

theorem loop_eq (reads : Reads part 1) (next : Outlook) (names : List String) (text : List Char) :
    loop part greedy next names text =
      turning greedy (part (loop part greedy next)) next names text := by
  have same : part (loop part greedy next) names text =
      part (fun names rest =>
        if _shorter : rest.length < text.length then loop part greedy next names rest else none)
        names text := by
    refine reads _ _ names text fun names rest shorter => ?_
    rw [dif_pos (Nat.lt_of_succ_le shorter)]
  rw [loop, turning, turning, same]

/-! ## What some parts read -/

theorem contains_single {c d : Char} : (CharSet.single c).contains d = true ↔ d = c := by
  simp only [CharSet.single, CharSet.contains, CharSet.inRange, Bool.and_eq_true, decide_eq_true_eq]
  constructor
  · rintro ⟨low, high⟩
    exact Char.le_antisymm high low
  · rintro rfl
    exact ⟨Char.le_refl _, Char.le_refl _⟩

theorem readingAll_append (text : List Char) (next : Outlook) (names : List String)
    (rest : List Char) : readingAll text next names (text ++ rest) = next names rest := by
  induction text with
  | nil => rfl
  | cons c text ih => exact (if_pos (contains_single.mpr rfl)).trans ih

theorem readingAll_eq_none {text rest : List Char} (other : ¬ text <+: rest) (next : Outlook)
    (names : List String) : readingAll text next names rest = none := by
  induction text generalizing rest with
  | nil => exact absurd List.nil_prefix other
  | cons c text ih =>
    cases rest with
    | nil => rfl
    | cons d rest =>
      by_cases same : d = c
      · subst same
        have later := ih fun starts => other (List.prefix_cons_inj d |>.mpr starts)
        exact (if_pos (contains_single.mpr rfl)).trans later
      · exact if_neg (mt contains_single.mp same)

/-- A loop over characters that is preferred to what follows reads as many as it can, if what follows
leads to the end. -/
theorem loop_reading (s : CharSet) {next : Outlook}
    (ends : ∀ names text, (next names text).isSome = true) (names : List String)
    (text : List Char) :
    loop (reading s) true next names text = next names (text.dropWhile s.contains) := by
  induction text with
  | nil => rw [loop_eq (reads_reading s)]; rfl
  | cons c rest ih =>
    rw [loop_eq (reads_reading s), turning, if_pos rfl, reading, List.dropWhile_cons]
    split
    · rw [ih, Option.or_of_isSome (ends _ _)]
    · rfl

/-- A loop looks at no more text than there is. -/
theorem reads_loop (part : Outlook → Outlook) (greedy : Bool) : Reads (loop part greedy) 0 := by
  intro next next' names text agree
  induction size : text.length using Nat.strongRecOn generalizing names text with
  | _ size ih =>
    subst size
    have same : (fun names rest =>
          if _shorter : rest.length < text.length then loop part greedy next names rest else none) =
        fun names rest =>
          if _shorter : rest.length < text.length then loop part greedy next' names rest
          else none := by
      funext names rest
      by_cases shorter : rest.length < text.length
      · rw [dif_pos shorter, dif_pos shorter]
        exact ih rest.length shorter names rest
          (fun names rest' less => agree names rest' (by omega)) rfl
      · rw [dif_neg shorter, dif_neg shorter]
    rw [loop, loop, same, turning, turning, agree names text (Nat.le_refl _)]

theorem optional_congr (reads : Reads part 0) {exit exit' next next' : Outlook} {text : List Char}
    (exits : ∀ names rest, rest.length ≤ text.length → exit names rest = exit' names rest)
    (nexts : ∀ names rest, rest.length ≤ text.length → next names rest = next' names rest)
    (n : Nat) (names : List String) :
    optional part greedy exit n next names text = optional part greedy exit' n next' names text := by
  induction n generalizing next next' with
  | zero => exact nexts names text (Nat.le_refl _)
  | succ n ih =>
    refine ih fun names rest less => ?_
    have same : part next names rest = part next' names rest :=
      reads next next' names rest fun names rest' less' => nexts names rest' (by omega)
    rw [turning, turning, same, exits names rest less]

theorem reads_optional (reads : Reads part 0) (n : Nat) :
    Reads (fun next => optional part greedy next n next) 0 :=
  fun _ _ names _ agree => optional_congr reads agree agree n names

end Outlook

namespace Pattern

theorem reads_tries (p : Pattern) (steady : p.isSteady = true) :
    Reads p.tries (if p.mayBeEmpty then 0 else 1) := by
  induction p with
  | empty => exact reads_id
  | literal text =>
    refine (reads_readingAll text).mono ?_
    cases text <;> simp [mayBeEmpty]
  | set s => exact reads_reading s
  | check a => cases steady
  | group name p ih =>
    cases name with
    | none => exact ih steady
    | some name =>
      intro next next' names text agree
      exact ih steady _ _ names text fun names rest shorter => agree _ rest shorter
  | repeated p least most greedy ih =>
    rw [isSteady, Bool.and_eq_true] at steady
    have turn := ih steady.1
    rw [mayBeEmpty]
    cases most with
    | none =>
      have filled : p.mayBeEmpty = false := by simpa using steady.2
      rw [filled] at turn ⊢
      refine ((reads_several turn least).comp (reads_loop p.tries greedy)).mono ?_
      cases least <;> simp
    | some most =>
      refine ((reads_several turn least).comp
        (reads_optional (turn.mono (Nat.zero_le _)) (most - least))).mono ?_
      cases least <;> cases p.mayBeEmpty <;> simp
  | seq a b iha ihb =>
    rw [isSteady, Bool.and_eq_true] at steady
    refine ((iha steady.1).comp (ihb steady.2)).mono ?_
    rw [mayBeEmpty]
    cases a.mayBeEmpty <;> cases b.mayBeEmpty <;> decide
  | alt a b iha ihb =>
    rw [isSteady, Bool.and_eq_true] at steady
    rw [mayBeEmpty]
    have first : Reads a.tries (if a.mayBeEmpty || b.mayBeEmpty then 0 else 1) :=
      (iha steady.1).mono (by cases a.mayBeEmpty <;> cases b.mayBeEmpty <;> decide)
    have second : Reads b.tries (if a.mayBeEmpty || b.mayBeEmpty then 0 else 1) :=
      (ihb steady.2).mono (by cases a.mayBeEmpty <;> cases b.mayBeEmpty <;> decide)
    intro next next' names text agree
    simp only [tries, first next next' names text agree, second next next' names text agree]

end Pattern

namespace Program

/-! ## Code that is written -/

/-- The second code has the steps of the first one, and steps behind them. -/
def Grows (code code' : Array Step) : Prop :=
  code.size ≤ code'.size ∧ ∀ i < code.size, code'[i]? = code[i]?

/-- The program has the steps of a code from an index on. -/
def Agrees (p : Program) (low : Nat) (code : Array Step) : Prop :=
  ∀ i, low ≤ i → i < code.size → p.steps[i]? = code[i]?

/-- What comes of a step, as an outlook. -/
def outlook (p : Program) (step : Nat) : Outlook := fun names text => p.run text step names

/-- The writer adds steps behind those that are there, and in every program that has them there comes
of them what is said. -/
structure Writes (p : Program) (w : Writer) (part : Outlook → Outlook) : Prop where
  grows : ∀ next code, Grows code (w next code).2
  comes : ∀ next code, p.Agrees code.size (w next code).2 →
    p.outlook (w next code).1 = part (p.outlook next)

variable {p : Program} {code code' code'' : Array Step} {w w' : Writer}
  {part part' : Outlook → Outlook}

theorem Grows.refl (code : Array Step) : Grows code code := ⟨Nat.le_refl _, fun _ _ => rfl⟩

theorem Grows.trans (first : Grows code code') (second : Grows code' code'') : Grows code code'' :=
  ⟨Nat.le_trans first.1 second.1, fun i inside => by
    rw [second.2 i (Nat.lt_of_lt_of_le inside first.1), first.2 i inside]⟩

theorem grows_push (code : Array Step) (step : Step) : Grows code (code.push step) := by
  refine ⟨by simp, fun i inside => ?_⟩
  rw [Array.getElem?_push_lt inside, Array.getElem?_eq_getElem inside]

/-- A program that agrees with a code agrees with what the code has grown from. -/
theorem Agrees.of_grows {low : Nat} (agrees : p.Agrees low code') (grows : Grows code code') :
    p.Agrees low code :=
  fun i above inside => by
    rw [agrees i above (Nat.lt_of_lt_of_le inside grows.1), grows.2 i inside]

theorem Agrees.mono {low low' : Nat} (agrees : p.Agrees low code) (less : low ≤ low') :
    p.Agrees low' code :=
  fun i above inside => agrees i (Nat.le_trans less above) inside

theorem Agrees.step {step : Step} (agrees : p.Agrees code.size (code.push step)) :
    p.steps[code.size]? = some step := by
  rw [agrees code.size (Nat.le_refl _) (by simp), Array.getElem?_push_size]

theorem outlook_turn (acyclic : p.Acyclic) {greedy : Bool} {body next step : Nat}
    (here : p.steps[step]? = some (turn greedy body next)) :
    p.outlook step = turning greedy (p.outlook body) (p.outlook next) := by
  funext names text
  unfold turn at here
  cases greedy <;> exact acyclic.run_branch here

namespace Writes

theorem comp (first : p.Writes w part) (second : p.Writes w' part') :
    p.Writes (fun next code => let (next, code) := w' next code; w next code)
      (fun next => part (part' next)) where
  grows next code := (second.grows next code).trans (first.grows _ _)
  comes next code agrees := by
    rw [first.comes _ _ (agrees.mono (second.grows next code).1),
      second.comes next code (agrees.of_grows (first.grows _ _))]

theorem skip : p.Writes (fun next code => (next, code)) (fun next => next) where
  grows _ code := .refl code
  comes _ _ _ := rfl

theorem read (s : CharSet) : p.Writes (fun next code => add (.read s next) code) (reading s) where
  grows next code := grows_push code _
  comes next code agrees := by
    funext names text
    have here : p.steps[code.size]? = some (.read s next) := Agrees.step agrees
    refine (run_read here).trans ?_
    cases text <;> rfl

theorem literal (text : List Char) : p.Writes (writeLiteral text) (readingAll text) := by
  induction text with
  | nil => exact skip
  | cons c rest ih => exact (read (.single c)).comp ih

theorem copies (once : p.Writes w part) (n : Nat) : p.Writes (writeCopies w n) (several part n) := by
  induction n with
  | zero => exact skip
  | succ n ih => exact ih.comp once

theorem mark (acyclic : p.Acyclic) (name : String) :
    p.Writes (fun next code => add (.mark name next) code)
      (fun next names => next (addName name names)) where
  grows next code := grows_push code _
  comes next code agrees := by
    funext names text
    have here : p.steps[code.size]? = some (.mark name next) := Agrees.step agrees
    exact acyclic.run_mark here

theorem branch (acyclic : p.Acyclic) (first : p.Writes w part) (second : p.Writes w' part') :
    p.Writes
      (fun next code =>
        let (second, code) := w' next code
        let (first, code) := w next code
        add (.branch first second) code)
      (fun next names text => (part next names text).or (part' next names text)) where
  grows next code := ((second.grows next code).trans (first.grows _ _)).trans (grows_push _ _)
  comes next code agrees := by
    have grown := first.grows next (w' next code).2
    have here := Agrees.step (agrees.mono ((second.grows next code).trans grown).1)
    have agrees' := agrees.of_grows (grows_push _ _)
    funext names text
    refine (acyclic.run_branch here).trans ?_
    rw [← first.comes next _ (agrees'.mono (second.grows next code).1),
      ← second.comes next code (agrees'.of_grows grown)]
    rfl

/-- A turn of a loop may leave to a step that stands elsewhere. -/
theorem optional (acyclic : p.Acyclic) (once : p.Writes w part) (greedy : Bool) (exit n : Nat) :
    p.Writes (writeOptional w greedy exit n) (Outlook.optional part greedy (p.outlook exit) n) := by
  induction n with
  | zero => exact skip
  | succ n ih =>
    have turned : p.Writes
        (fun next code =>
          let (body, code) := w next code
          add (turn greedy body exit) code)
        (fun next => turning greedy (part next) (p.outlook exit)) := by
      refine ⟨fun next code => (once.grows next code).trans (grows_push _ _), ?_⟩
      intro next code agrees
      have here := Agrees.step (agrees.mono (once.grows next code).1)
      rw [← once.comes next code (agrees.of_grows (grows_push _ _))]
      exact outlook_turn acyclic here
    exact ih.comp turned

/-- The body of a loop leads back to the branch that is filled in afterwards. -/
theorem loop (acyclic : p.Acyclic) (once : p.Writes w part) (reads : Reads part 1)
    (greedy byBranch : Bool) :
    p.Writes (writeLoop w greedy byBranch) fun next =>
      if byBranch then Outlook.loop part greedy next
      else part (Outlook.loop part greedy next) where
  grows next code := by
    obtain ⟨longer, same⟩ := once.grows code.size (code.push .done)
    rw [Array.size_push] at longer same
    refine ⟨by simp only [writeLoop, add, Array.size_setIfInBounds]; omega, fun i inside => ?_⟩
    simp only [writeLoop, add, Array.getElem?_setIfInBounds_ne (Nat.ne_of_gt inside)]
    rw [same i (by omega), Array.getElem?_push_lt inside, Array.getElem?_eq_getElem inside]
  comes next code agrees := by
    have longer := (once.grows code.size (code.push .done)).1
    rw [Array.size_push] at longer
    have filled := agrees code.size (Nat.le_refl _)
      (by simp only [writeLoop, add, Array.size_setIfInBounds]; omega)
    simp only [writeLoop, add] at filled
    rw [Array.getElem?_setIfInBounds_self_of_lt (by omega)] at filled
    have inner : p.Agrees (code.push .done).size (w code.size (code.push .done)).2 := by
      intro i above inside
      rw [Array.size_push] at above
      have outer := agrees i (by omega) (by simpa only [writeLoop, add, Array.size_setIfInBounds])
      rw [outer]
      simp only [writeLoop, add, Array.getElem?_setIfInBounds_ne (Nat.ne_of_lt above)]
    have body := once.comes code.size (code.push .done) inner
    have around : p.outlook code.size = Outlook.loop part greedy (p.outlook next) := by
      refine eq_loop reads fun names text => ?_
      rw [← body]
      exact congrFun (congrFun (outlook_turn acyclic filled) names) text
    cases byBranch with
    | true => exact around
    | false => exact body.trans (congrArg part around)

theorem atLeast (acyclic : p.Acyclic) (once : p.Writes w part) (reads : Reads part 1)
    (greedy : Bool) (least : Nat) :
    p.Writes (writeAtLeast w greedy false least)
      (fun next => several part least (Outlook.loop part greedy next)) := by
  cases least with
  | zero => exact loop acyclic once reads greedy true
  | succ n => exact (once.copies n).comp (loop acyclic once reads greedy false)

/-- What is written for a pattern does what the pattern does. -/
theorem write (acyclic : p.Acyclic) (q : Pattern) (steady : q.isSteady = true) :
    p.Writes (Program.write q) q.tries := by
  induction q with
  | empty => exact skip
  | literal text => exact literal text
  | set s => exact read s
  | check a => cases steady
  | group name q ih =>
    cases name with
    | none => exact ih steady
    | some name => exact (ih steady).comp (mark acyclic name)
  | repeated q least most greedy ih =>
    rw [Pattern.isSteady, Bool.and_eq_true] at steady
    have once := ih steady.1
    cases most with
    | none =>
      have filled : q.mayBeEmpty = false := by simpa using steady.2
      have reads := q.reads_tries steady.1
      rw [filled] at reads
      have written := atLeast acyclic once reads greedy least
      rw [← filled] at written
      exact written
    | some most =>
      refine ⟨fun next code => ?_, fun next code agrees => ?_⟩
      · exact ((optional acyclic once greedy next (most - least)).grows next code).trans
          ((once.copies least).grows _ _)
      · exact ((once.copies least).comp (optional acyclic once greedy next (most - least))).comes
          next code agrees
  | seq a b iha ihb =>
    rw [Pattern.isSteady, Bool.and_eq_true] at steady
    exact (iha steady.1).comp (ihb steady.2)
  | alt a b iha ihb =>
    rw [Pattern.isSteady, Bool.and_eq_true] at steady
    exact branch acyclic (iha steady.1) (ihb steady.2)

end Writes

/-- What a match of a compiled pattern is. -/
theorem lead?_ofPattern (q : Pattern) (steady : q.isSteady = true)
    (acyclic : (ofPattern q).Acyclic) (text : List Char) :
    (ofPattern q).lead? text = q.tries (fun names rest => some ⟨names, rest⟩) [] text := by
  have written := Writes.write acyclic q steady
  have done : (ofPattern q).steps[0]? = some .done := (written.grows 0 #[.done]).2 0 Nat.zero_lt_one
  have ended : (ofPattern q).outlook 0 = fun names rest => some ⟨names, rest⟩ := by
    funext names rest
    exact run_done done
  rw [← ended]
  exact congrFun (congrFun (written.comes 0 #[.done] fun _ _ _ => rfl) []) text

end Program

end BracketColoring

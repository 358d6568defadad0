import BracketColoring.Proofs.Occurrence.Scanned
import BracketColoring.Proofs.Pattern.Compiled
import BracketColoring.Proofs.Pattern.OnePass
import BracketColoring.Proofs.Region.Lines
import BracketColoring.Region.Languages
import Mathlib.Data.List.TakeWhile

/-!
# Runs of symbols

A gap between regions is cut once more, into runs of symbols and the texts between them, and each run
is scanned on its own. When all literals are made of symbols nothing is lost by this: what a run ends
at is no symbol, and such a character parts a scan. So the brackets of a gap are those that one scan
of it finds (`occurrencesOf_tokenizeGap`). Of the engine it is only used that its matches are in
order, and that by the usual pattern for punctuation it finds the runs (`FindsSymbolRuns`).
-/

namespace BracketColoring

open Literals (Scans)
open PatternEngine (compile? spans)

/-- A symbol is neither part of a word nor white space. -/
def IsSymbol (c : Char) : Prop := Unicode.isWord c = false ∧ Unicode.isWhiteSpace c = false

instance (c : Char) : Decidable (IsSymbol c) := inferInstanceAs (Decidable (_ ∧ _))

/-- All literals consist of symbols. -/
def Settings.Symbolic (s : Settings) : Prop :=
  ∀ d ∈ s.pairs, ∀ c ∈ d.opening.toList ++ d.closing.toList, IsSymbol c

instance (text : List Char) : Decidable (∀ c ∈ text, IsSymbol c) := List.decidableBAll IsSymbol text

instance (s : Settings) : Decidable s.Symbolic := List.decidableBAll _ s.pairs

/-- No literal has a character that is no symbol. -/
theorem Settings.Symbolic.lacks {s : Settings} (symbolic : s.Symbolic) {c : Char}
    (other : ¬ IsSymbol c) : s.literals.Lacks c := by
  intro b member inside
  obtain ⟨d, listed, same⟩ := Literals.exists_pair_of_mem_ofPairs member
  refine other (symbolic d listed c ?_)
  rw [same] at inside
  cases role : b.role with
  | opening =>
    rw [role] at inside
    exact List.mem_append_left _ inside
  | closing =>
    rw [role] at inside
    exact List.mem_append_right _ inside

/-- The spans are the runs of symbols in a text, none of which could be longer. `pos` is the byte where
the text starts. -/
inductive SymbolRuns : Nat → List Char → List Span → Prop
  | last {pos : Nat} {text : List Char} (plain : ∀ c ∈ text, ¬ IsSymbol c) : SymbolRuns pos text []
  | run {pos : Nat} {gap run rest : List Char} {names : List String} {later : List Span}
      (plain : ∀ c ∈ gap, ¬ IsSymbol c) (filled : run ≠ []) (symbols : ∀ c ∈ run, IsSymbol c)
      (ends : ∀ c ∈ rest.head?, ¬ IsSymbol c)
      (others : SymbolRuns (pos + byteCount gap + byteCount run) rest later) :
      SymbolRuns pos (gap ++ run ++ rest)
        (⟨pos + byteCount gap, pos + byteCount gap + byteCount run, names⟩ :: later)

/-- By the usual pattern for punctuation an engine finds the runs of symbols. -/
def FindsSymbolRuns (Rx : Type) [PatternEngine Rx] : Prop :=
  ∀ p : Rx, compile? "[^\\w\\s]+" = some p → ∀ text, SymbolRuns 0 text (spans p false text)

namespace RegionLexer

/-- The occurrences in a text with some regions when each gap is scanned on its own, and each region
that is `searched` too. `pos` and `p` are the place where the text starts. -/
inductive ScansApart (pairs : List PairDefinition) (searched : Region → Prop) :
    Nat → Position → List Char → List Region → List Occurrence → Prop
  | last {pos : Nat} {p : Position} {text : List Char} {os : List Occurrence}
      (gap : Scans pairs p text os) : ScansApart pairs searched pos p text [] os
  | region {pos : Nat} {p : Position} {between rest : List Char} (r : Region)
      {regions : List Region} {os inside later : List Occurrence} (gap : Scans pairs p between os)
      (start : r.start = pos + between.length)
      (own : searched r → Scans pairs (p.advance between) r.text inside)
      (none : ¬ searched r → inside = [])
      (behind : ScansApart pairs searched (r.start + r.text.length)
        ((p.advance between).advance r.text) rest regions later) :
      ScansApart pairs searched pos p (between ++ r.text ++ rest) (r :: regions)
        (os ++ inside ++ later)

namespace ScansApart

variable {pairs : List PairDefinition} {searched : Region → Prop} {pos : Nat} {p : Position}
  {text : List Char} {regions : List Region} {os os' : List Occurrence}

/-- Scans have one outcome. -/
theorem unique (filled : (Literals.ofPairs pairs).NonEmpty)
    (scans : ScansApart pairs searched pos p text regions os)
    (scans' : ScansApart pairs searched pos p text regions os') : os = os' := by
  induction scans generalizing os' with
  | last gap =>
    cases scans' with
    | last gap' => exact gap.unique filled gap'
  | @region pos p between rest r regions os inside later gap start own none behind ih =>
    generalize whole : between ++ r.text ++ rest = text at scans'
    cases scans' with
    | @region _ _ between' rest' _ _ os' inside' later' gap' start' own' none' behind' =>
      have length : between.length = between'.length := by omega
      rw [List.append_assoc, List.append_assoc] at whole
      obtain ⟨rfl, behindGap⟩ := List.append_inj whole length
      obtain rfl := List.append_cancel_left behindGap
      have same : inside = inside' := by
        by_cases ofRegion : searched r
        · exact (own ofRegion).unique filled (own' ofRegion)
        · rw [none ofRegion, none' ofRegion]
      rw [gap.unique filled gap', same, ih behind']

theorem nil_iff :
    ScansApart pairs searched pos p text [] os ↔ Scans pairs p text os := by
  constructor
  · rintro ⟨gap⟩
    exact gap
  · exact .last

/-- It only matters which of the regions are searched. -/
theorem congr {searched' : Region → Prop} (same : ∀ r ∈ regions, searched r ↔ searched' r)
    (scans : ScansApart pairs searched pos p text regions os) :
    ScansApart pairs searched' pos p text regions os := by
  induction scans with
  | last gap => exact .last gap
  | region r gap start own none behind ih =>
    obtain ⟨here, others⟩ := List.forall_mem_cons.mp same
    exact .region r gap start (fun s => own (here.mpr s)) (fun s => none (mt here.mp s)) (ih others)

/-- In a text that is one region nothing is found, when the region is not searched. -/
theorem eq_nil_of_region (filled : (Literals.ofPairs pairs).NonEmpty) {r : Region}
    (start : r.start = pos) (unsearched : ¬ searched r)
    (scans : ScansApart pairs searched pos p r.text [r] os) : os = [] := by
  have nothing : ∀ {p os}, Scans pairs p [] os → os = [] := (Literals.scans_iff filled).mp
  generalize whole : r.text = text at scans
  cases scans with
  | @region _ _ between rest _ _ _ inside later gap start' own none behind =>
    have lengths := congrArg List.length whole
    rw [List.length_append, List.length_append] at lengths
    obtain rfl : between = [] := List.length_eq_zero_iff.mp (by omega)
    obtain rfl : rest = [] := List.length_eq_zero_iff.mp (by omega)
    rw [nothing gap, none unsearched, nothing (nil_iff.mp behind)]
    rfl

end ScansApart

/-! ## The runs of a gap -/

section

variable {Rx : Type} {t : Literals}

/-- A text without symbols has no part in a scan. -/
theorem occurrencesIn_plain (nonEmpty : t.NonEmpty) (symbols : ∀ c, ¬ IsSymbol c → t.Lacks c)
    (p : Position) {gap : List Char} (plain : ∀ c ∈ gap, ¬ IsSymbol c) (rest : List Char) :
    (t.occurrencesIn p (gap ++ rest)).1 = (t.occurrencesIn (p.advance gap) rest).1 := by
  induction gap generalizing p with
  | nil => rw [List.nil_append, Position.advance_nil]
  | cons c gap ih =>
    obtain ⟨other, others⟩ := List.forall_mem_cons.mp plain
    have passed := (symbols c other).occurrencesIn_append nonEmpty p [] (gap ++ rest)
    rw [List.nil_append, List.nil_append, ih _ others, ← Position.advance_append,
      List.singleton_append] at passed
    exact passed

/-- The runs of a gap are scanned as the gap is, when no literal has a character that ends a run.
`before` is the text before the first run. -/
theorem exists_gapTokensFrom? (nonEmpty : t.NonEmpty) (symbols : ∀ c, ¬ IsSymbol c → t.Lacks c)
    {pos : Nat} {text : List Char} {found : List Span} (runs : SymbolRuns pos text found)
    (p : Position) (before : List Char) (start : byteCount before = pos) :
    ∃ tokens, Lexer.gapTokensFrom? (before ++ text) pos found = some tokens ∧
      t.occurrencesOf p tokens = (t.occurrencesIn p text).1 := by
  induction runs generalizing p before with
  | @last pos text plain =>
    have last := Lexer.plainBetween?_append before text []
    have nothing := occurrencesIn_plain nonEmpty symbols p plain []
    rw [List.append_nil, start] at last
    rw [List.append_nil] at nothing
    refine ⟨Lexer.plainToken text, ?_, ?_⟩
    · rw [Lexer.gapTokensFrom?, byteCount_append, start, last]
    · rw [Literals.occurrencesOf_plainToken, nothing]
      rfl
  | @run pos gap run rest names later plain filled runSymbols ends others ih =>
    have gapToken := Lexer.plainBetween?_append before gap (run ++ rest)
    have piece := slice?_append (before ++ gap) run rest
    obtain ⟨tokens, cut, scanned⟩ := ih ((p.advance gap).advance run)
      (before ++ gap ++ run) (by rw [byteCount_append, byteCount_append, start])
    rw [byteCount_append] at piece
    simp only [start, List.append_assoc] at gapToken piece cut ⊢
    refine ⟨Lexer.plainToken gap ++ .punctuation run :: tokens, ?_, ?_⟩
    · simp [Lexer.gapTokensFrom?, gapToken, piece, cut]
    · have leaf : t.occurrencesOf (p.advance gap) [.punctuation run] =
          (t.occurrencesIn (p.advance gap) run).1 :=
        Literals.occurrencesOf_leaf (p.advance gap) .punctuation run
      have text : Token.leafText (.punctuation run) = run := Token.leafText_leaf .punctuation run
      rw [Literals.occurrencesOf_append nonEmpty, Literals.occurrencesOf_plainToken,
        Lexer.flatMap_plainToken, List.nil_append, Literals.occurrencesOf_cons nonEmpty, leaf, text,
        scanned, occurrencesIn_plain nonEmpty symbols p plain,
        Literals.occurrencesIn_append nonEmpty _ _ fun c first => symbols c (ends c first)]

variable [PatternEngine Rx] {l : Lexer Rx}

/-- The brackets of a gap are those that one scan of it finds. -/
theorem occurrencesOf_tokenizeGap
    (runs : ∀ text, SymbolRuns 0 text (spans l.punctuation false text)) (nonEmpty : t.NonEmpty)
    (symbols : ∀ c, ¬ IsSymbol c → t.Lacks c) (p : Position) (gap : List Char) :
    t.occurrencesOf p (l.tokenizeGap gap) = (t.occurrencesIn p gap).1 := by
  obtain ⟨tokens, cut, scanned⟩ :=
    exists_gapTokensFrom? nonEmpty symbols (runs gap) p [] rfl
  rw [List.nil_append] at cut
  rw [Lexer.tokenizeGap, Lexer.tokenizeGap?, cut, Option.getD_some, scanned]

/-! ## The gaps between regions -/

/-- Where a text is cut at its regions, each gap is scanned on its own, and each region of
punctuation. -/
theorem scansApart_of_cut (lawful : PatternEngine.Lawful Rx)
    (runs : ∀ text, SymbolRuns 0 text (spans l.punctuation false text)) {s : Settings}
    (valid : s.Valid) (symbolic : s.Symbolic) {pos : Nat} {text : List Char}
    {regions : List Region} {tokens : List Token} (cut : l.Cut pos text regions tokens)
    (p : Position) :
    ScansApart s.pairs (·.category = .punctuation) pos p text regions
      (s.literals.occurrencesOf p tokens) := by
  have nonEmpty := valid.literals_nonEmpty
  have scanned : ∀ p text, Scans s.pairs p text (s.literals.occurrencesIn p text).1 :=
    fun p text => (Literals.scans_iff nonEmpty).mpr rfl
  have gaps : ∀ p gap, s.literals.occurrencesOf p (l.tokenizeGap gap) =
      (s.literals.occurrencesIn p gap).1 :=
    occurrencesOf_tokenizeGap runs nonEmpty fun c => symbolic.lacks
  induction cut generalizing p with
  | last =>
    rw [gaps]
    exact .last (scanned p _)
  | @region pos between rest r regions tokens start later ih =>
    rw [Literals.occurrencesOf_append nonEmpty, Lexer.flatMap_tokenizeGap lawful,
      Literals.occurrencesOf_cons nonEmpty, Token.leafText_leaf, gaps,
      Literals.occurrencesOf_leaf, ← List.append_assoc]
    refine .region r (scanned p between) start ?own ?none (ih _)
    case own =>
      intro punctuation
      rw [if_pos punctuation]
      exact scanned _ _
    case none =>
      intro other
      rw [if_neg other]

/-- The brackets that a lexer finds in a text when its punctuation is the runs of symbols. -/
theorem exists_scansApart (lawful : PatternEngine.Lawful Rx) (l : Lexer Rx)
    (runs : ∀ text, SymbolRuns 0 text (spans l.punctuation false text)) {s : Settings}
    (valid : s.Valid) (symbolic : s.Symbolic) (text : String) :
    ∃ root regions, Tokenizer.tokenize l text = (.ok root, l) ∧
      List.Forall₂ (Marks l.rules text.toList)
        ((l.regionSpans text.toList).filter (Span.isRegion l.rules)) regions ∧
      (∀ r ∈ regions, ∃ rule ∈ l.rules, rule.category = r.category) ∧
      ∀ os, ScansApart s.pairs (·.category = .punctuation) 0 .origin text.toList regions os ↔
        os = (root.occurrences s.literals).occurrences := by
  obtain ⟨regions, children, tokens, marks, categories, cut⟩ := l.exists_cut lawful text.toList
  refine ⟨.list children, regions, ?_, marks, categories, ?_⟩
  · simp [Tokenizer.tokenize, Lexer.tokenize, tokens]
  · have scans := scansApart_of_cut lawful runs valid symbolic cut .origin
    rw [occurrences_eq_occurrencesOf, Literals.occurrencesOf_list]
    intro os
    constructor
    · intro other
      exact other.unique valid.literals_nonEmpty scans
    · rintro rfl
      exact scans

end

/-! ## The runs that programs find -/

/-- The set that a symbol is in. -/
def symbol : CharSet := .compl (.union .word .whiteSpace)

def symbolRun : Pattern := .repeated (.set symbol) 1 none true

theorem read?_defaultPunctuation : Pattern.read? defaultPunctuation = some symbolRun := by
  decide +kernel

theorem acyclic_symbolRun : (Program.ofPattern symbolRun).Acyclic := by
  decide +kernel

theorem contains_symbol {c : Char} : symbol.contains c = true ↔ IsSymbol c := by
  simp [symbol, CharSet.contains, IsSymbol]

/-- A run begins at a symbol, and goes on as long as there are symbols. -/
theorem lead?_symbolRun (text : List Char) :
    (Program.ofPattern symbolRun).lead? text =
      if text.head?.any symbol.contains then some ⟨[], text.dropWhile symbol.contains⟩
      else none := by
  rw [Program.lead?_ofPattern symbolRun rfl acyclic_symbolRun]
  cases text with
  | nil => rfl
  | cons c rest =>
    have read : symbolRun.tries (fun names rest => some ⟨names, rest⟩) [] (c :: rest) =
        if symbol.contains c then some ⟨[], rest.dropWhile symbol.contains⟩ else none :=
      congrArg (fun found => if symbol.contains c then found else none)
        (Outlook.loop_reading symbol (fun _ _ => rfl) [] rest)
    rw [read, List.dropWhile_cons, List.head?_cons, Option.any_some]
    split <;> rfl

theorem filled_symbolRun : Filled (Program.ofPattern symbolRun).lead? := by
  intro text e begins
  rw [lead?_symbolRun] at begins
  split at begins
  · next starts =>
    obtain ⟨c, first, inside⟩ := Option.any_eq_true _ _ |>.mp starts
    obtain ⟨rest, rfl⟩ := List.head?_eq_some_iff.mp first
    cases begins
    refine ⟨(c :: rest).takeWhile symbol.contains, ?_, List.takeWhile_append_dropWhile.symm⟩
    rw [List.takeWhile_cons_of_pos inside]
    exact List.cons_ne_nil _ _
  · cases begins

/-- A run is made of symbols. -/
theorem isSymbol_of_lead? {piece rest : List Char} {names : List String}
    (begins : (Program.ofPattern symbolRun).lead? (piece ++ rest) = some ⟨names, rest⟩) :
    ∀ c ∈ piece, IsSymbol c := by
  rw [lead?_symbolRun] at begins
  split at begins
  · have behind : (piece ++ rest).dropWhile symbol.contains = rest :=
      congrArg Ending.rest (Option.some.inj begins)
    have whole : (piece ++ rest).takeWhile symbol.contains ++
        (piece ++ rest).dropWhile symbol.contains = piece ++ rest :=
      List.takeWhile_append_dropWhile
    rw [behind] at whole
    intro c inside
    rw [← List.append_cancel_right whole] at inside
    exact contains_symbol.mp (List.mem_takeWhile_imp inside)
  · cases begins

/-- What follows a run is no symbol. -/
theorem not_isSymbol_of_lead? {text rest : List Char} {names : List String}
    (begins : (Program.ofPattern symbolRun).lead? text = some ⟨names, rest⟩) :
    ∀ c ∈ rest.head?, ¬ IsSymbol c := by
  rw [lead?_symbolRun] at begins
  split at begins
  · cases begins
    intro c first
    have stops := List.head?_dropWhile_not symbol.contains text
    rw [Option.mem_def.mp first] at stops
    rw [← contains_symbol, stops]
    exact Bool.false_ne_true
  · cases begins

/-- In one pass over a text the runs are found where they begin. `gap` is the text since the last. -/
theorem symbolRuns_of_onePass {gap text tail : List Char} {ms : List Match}
    (pass : OnePass (Program.ofPattern symbolRun).lead? gap text ms tail)
    (plain : ∀ c ∈ gap, ¬ IsSymbol c) (pos : Nat) :
    SymbolRuns pos (gap ++ text) (Match.spans pos ms) := by
  induction pass generalizing pos with
  | stop =>
    rw [List.append_nil]
    exact .last plain
  | @pass gap rest tail c ms ordinary later ih =>
    have other : ¬ IsSymbol c := by
      intro isSymbol
      rw [lead?_symbolRun, List.head?_cons, Option.any_some,
        contains_symbol.mpr isSymbol] at ordinary
      cases ordinary
    rw [List.append_cons]
    exact ih (List.forall_mem_append.mpr ⟨plain, List.forall_mem_singleton.mpr other⟩) pos
  | @found gap piece rest tail names ms begins filled later ih =>
    rw [← List.append_assoc]
    refine .run plain filled (isSymbol_of_lead? begins) (not_isSymbol_of_lead? begins) ?_
    exact ih (List.forall_mem_nil _) _

theorem findsSymbolRuns : FindsSymbolRuns Program := by
  intro p compiles text
  have program : (compile? "[^\\w\\s]+" : Option Program) = some (.ofPattern symbolRun) := by
    change (Pattern.read? defaultPunctuation).map Program.ofPattern = _
    rw [read?_defaultPunctuation, Option.map_some]
  obtain rfl := Option.some.inj (program.symm.trans compiles)
  have pass := acyclic_symbolRun.onePass_search filled_symbolRun false text
  exact symbolRuns_of_onePass pass (List.forall_mem_nil _) 0

/-! ## The brackets of a text -/

/-- When all literals consist of symbols, cutting a text into runs of symbols loses none of them. A
lexer without rules finds the brackets of one leftmost-longest scan of the text. With rules, each gap
between regions is scanned on its own, and so is each region whose rule has the category of
punctuation; if there is no such rule, the gaps are all that is scanned. -/
theorem symbolRuns_keep_literals {s : Settings} (valid : s.Valid) (symbolic : s.Symbolic) :
    (∃ l, plain? = some l ∧ ∀ text : String, ∃ root,
      Tokenizer.tokenize l text = (.ok root, l) ∧
      ∀ os, Scans s.pairs .origin text.toList os ↔ os = (root.occurrences s.literals).occurrences) ∧
    ∀ {Rx : Type} [PatternEngine Rx], PatternEngine.Lawful Rx → FindsSymbolRuns Rx →
      ∀ (rules : List Rule) (regions : Option Rx) (p : Rx), Compiled rules regions →
        compile? defaultPunctuation = some p →
        ∃ l : Lexer Rx, ofRules? rules = some l ∧ ∀ text : String, ∃ root found,
          Tokenizer.tokenize l text = (.ok root, l) ∧
          List.Forall₂ (Marks rules text.toList)
            ((regions.elim [] fun p => spans p true text.toList).filter (Span.isRegion rules))
            found ∧
          (∀ os, ScansApart s.pairs (·.category = .punctuation) 0 .origin text.toList found os ↔
            os = (root.occurrences s.literals).occurrences) ∧
          ((∀ rule ∈ rules, rule.category ≠ .punctuation) →
            ∀ os, ScansApart s.pairs (fun _ => False) 0 .origin text.toList found os ↔
              os = (root.occurrences s.literals).occurrences) := by
  constructor
  case left =>
    obtain ⟨l, compiled⟩ : ∃ l, plain? = some l := by
      apply Option.isSome_iff_exists.mp
      decide +kernel
    obtain ⟨rules, together, compiles⟩ := ofRules?_eq_some_iff.mp compiled
    have absent := compiled_nil_iff.mp together
    refine ⟨l, compiled, fun text => ?_⟩
    obtain ⟨root, regions, tokens, marks, -, scans⟩ := exists_scansApart Program.lawful l
      (findsSymbolRuns l.punctuation compiles) valid symbolic text
    -- Without rules there are no matches, and so no regions.
    rw [Lexer.regionSpans, absent] at marks
    cases marks
    exact ⟨root, tokens, fun os => ScansApart.nil_iff.symm.trans (scans os)⟩
  case right =>
    intro Rx _ lawful finds rules regions p compiled compiles
    refine ⟨⟨rules, regions, p⟩, ofRules?_eq_some_iff.mpr ⟨rfl, compiled, compiles⟩, fun text => ?_⟩
    obtain ⟨root, found, tokens, marks, categories, scans⟩ :=
      exists_scansApart lawful ⟨rules, regions, p⟩ (finds p compiles) valid symbolic text
    refine ⟨root, found, tokens, ?_, scans, fun others os => ?_⟩
    · cases regions <;> exact marks
    · have unsearched : ∀ r ∈ found, r.category = .punctuation ↔ False := by
        intro r listed
        obtain ⟨rule, member, same⟩ := categories r listed
        exact iff_false_intro (same ▸ others rule member)
      rw [← scans os]
      exact ⟨.congr fun r listed => (unsearched r listed).symm, .congr unsearched⟩

/-- Settings with literals that overlap, inside of each other and end to end. -/
def starred : Settings where
  mode := .consecutive
  pairs := [⟨0, "(", ")", ⟨⟨"Blue"⟩, []⟩, ⟨"Red"⟩⟩, ⟨1, "(*", "*)", ⟨⟨"Blue"⟩, []⟩, ⟨"Red"⟩⟩]

theorem consecutive_starred :
    Settings.consecutive [("(", ")"), ("(*", "*)")] [⟨"Blue"⟩] ⟨"Red"⟩ = .ok starred := rfl

/-- In a run of two literals, and next to regions, of which one is punctuation. -/
theorem symbolRuns_keep_literals_starred :
    let rules : List Rule := [⟨"#[a-z]*", .comment⟩, ⟨"\\(\\(", .punctuation⟩]
    starred.Valid ∧ starred.Symbolic ∧
      (∃ l root, plain? = some l ∧ Tokenizer.tokenize l "(*é*))" = (.ok root, l) ∧
        (root.occurrences starred.literals).occurrences =
          [⟨⟨⟨0, 0⟩, ⟨0, 2⟩⟩, "(*", 1, .opening⟩, ⟨⟨⟨0, 3⟩, ⟨0, 5⟩⟩, "*)", 1, .closing⟩,
            ⟨⟨⟨0, 5⟩, ⟨0, 6⟩⟩, ")", 0, .closing⟩]) ∧
      PatternEngine.Lawful Program ∧ FindsSymbolRuns Program ∧
      ∃ (regions : Option Program) (p : Program) (l : RegionLexer) (root : Token)
          (found : List Region), Compiled rules regions ∧ compile? defaultPunctuation = some p ∧
        ofRules? rules = some l ∧ Tokenizer.tokenize l "((*#a*)" = (.ok root, l) ∧
        List.Forall₂ (Marks rules "((*#a*)".toList)
          ((regions.elim [] fun p => spans p true "((*#a*)".toList).filter (Span.isRegion rules))
          found ∧
        ScansApart starred.pairs (·.category = .punctuation) 0 .origin "((*#a*)".toList found
          (root.occurrences starred.literals).occurrences := by
  intro rules
  have valid : starred.Valid := Settings.valid_consecutive consecutive_starred
  have symbolic : starred.Symbolic := by decide +kernel
  obtain ⟨⟨l, found, scans⟩, apart⟩ := symbolRuns_keep_literals valid symbolic
  refine ⟨valid, symbolic, ?plain, Program.lawful, findsSymbolRuns, ?withRules⟩
  case plain =>
    obtain ⟨root, tokens, scans⟩ := scans "(*é*))"
    refine ⟨l, root, found, tokens, ((scans _).mp ?_).symm⟩
    refine (Literals.scans_iff valid.literals_nonEmpty).mpr ?_
    decide +kernel
  case withRules =>
    obtain ⟨⟨_, regions, p⟩, compiled⟩ : ∃ l : RegionLexer, ofRules? rules = some l := by
      apply Option.isSome_iff_exists.mp
      decide +kernel
    obtain ⟨-, together, compiles⟩ := ofRules?_eq_some_iff.mp compiled
    obtain ⟨l, made, texts⟩ :=
      apart Program.lawful findsSymbolRuns rules regions p together compiles
    obtain ⟨root, found, tokens, marks, scans, -⟩ := texts "((*#a*)"
    exact ⟨regions, p, l, root, found, together, compiles, made, tokens, marks, (scans _).mpr rfl⟩

/-- A rule may take any category: scans of the gaps alone miss the brackets of a region of
punctuation. -/
theorem gaps_alone_miss_brackets :
    let rules : List Rule := [⟨"\\(", .punctuation⟩]
    Settings.round.Valid ∧ Settings.round.Symbolic ∧
      PatternEngine.Lawful Program ∧ FindsSymbolRuns Program ∧
      ∃ (regions : Option Program) (l : RegionLexer), Compiled rules regions ∧
        ofRules? rules = some l ∧
        ¬ ∃ root found, Tokenizer.tokenize l "(" = (.ok root, l) ∧
          List.Forall₂ (Marks rules "(".toList)
            ((regions.elim [] fun p => spans p true "(".toList).filter (Span.isRegion rules))
            found ∧
          ScansApart Settings.round.pairs (fun _ => False) 0 .origin "(".toList found
            (root.occurrences Settings.round.literals).occurrences := by
  intro rules
  have valid := Settings.valid_round
  obtain ⟨l, compiled⟩ : ∃ l : RegionLexer, ofRules? rules = some l := by
    apply Option.isSome_iff_exists.mp
    decide +kernel
  obtain ⟨-, together, -⟩ := ofRules?_eq_some_iff.mp compiled
  refine ⟨valid, by decide +kernel, Program.lawful, findsSymbolRuns, l.regions, l, together,
    compiled, ?_⟩
  rintro ⟨root, found, tokens, marks, scans⟩
  -- The text is one region.
  have matched : (ofRules? rules : Option RegionLexer).map (fun l =>
        (l.regions.elim [] fun p => spans p true "(".toList).filter (Span.isRegion rules)) =
      some [⟨0, 1, ["__r0"]⟩] := by decide +kernel
  rw [compiled, Option.map_some, Option.some.injEq] at matched
  rw [matched] at marks
  obtain ⟨r, others, ⟨⟨before, after, split, start, first, size⟩, -⟩, none, rfl⟩ :=
    List.forall₂_cons_left_iff.mp marks
  cases none
  obtain rfl := byteCount_eq_zero_iff.mp first
  have text : r.text = "(".toList := by
    have whole := congrArg byteCount split
    have rest : after = [] := by
      refine byteCount_eq_zero_iff.mp ?_
      have parenthesis : byteCount "(".toList = 1 := rfl
      rw [byteCount_append, byteCount_append, parenthesis] at whole
      dsimp only at size first
      omega
    rw [split, rest, List.nil_append, List.append_nil]
  rw [← text] at scans
  have nothing := scans.eq_nil_of_region valid.literals_nonEmpty start.symm id
  -- But the region is searched.
  have leaves : (ofRules? rules : Option RegionLexer).map (fun l =>
      (l.tokenize "(".toList).leaves) = some [⟨true, ['(']⟩] := by decide +kernel
  rw [compiled, Option.map_some, Option.some.injEq] at leaves
  obtain rfl : l.tokenize "(".toList = root := Except.ok.inj (Prod.mk.inj tokens).1
  rw [Token.occurrences_eq_mapLeaves, leaves] at nothing
  revert nothing
  decide +kernel

end RegionLexer

end BracketColoring

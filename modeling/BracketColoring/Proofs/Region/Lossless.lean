import BracketColoring.Proofs.Occurrence.Leaves
import BracketColoring.Proofs.Region.Combined
import BracketColoring.Proofs.Region.Pieces
import Mathlib.Data.List.Forall2

/-!
# Region lexers lose nothing

The tokens of a region lexer are the text again: its regions, each a leaf at its place, and between
two regions the tokens of a gap (`Lays`). Which matches are regions is said without the lexer
(`Span.isRegion`, `Marks`), and the matches are those of any engine that tells of them in order. The
loop over the matches keeps the text since the last region as its gap, and `cut_tokensFrom` is the
induction over it.
-/

namespace BracketColoring

open PatternEngine (compile? spans)
open RegionLexer (groupName)

/-- A stretch of a text with a category. -/
structure Region where
  start : Nat
  category : Category
  text : List Char
deriving DecidableEq, Repr

/-- A match is a region when it is not empty and some rule's group took part in it. -/
def Span.isRegion (rules : List Rule) (m : Span) : Bool :=
  m.start != m.stop && (List.range rules.length).any fun i => m.names.contains (groupName i)

/-- The region of a match in a text stands where the match does, and has the category of the first
rule whose group took part in it. -/
structure Marks (rules : List Rule) (text : List Char) (m : Span) (r : Region) : Prop where
  place : ∃ before after, text = before ++ r.text ++ after ∧ before.length = r.start ∧
    byteCount before = m.start ∧ m.start + byteCount r.text = m.stop
  category : ∃ i rule, rules[i]? = some rule ∧ rule.category = r.category ∧
    groupName i ∈ m.names ∧ ∀ j < i, groupName j ∉ m.names

namespace Token

def punctuationText? : Token → Option (List Char)
  | .node .punctuation (.text s) => some s.toList
  | _ => none

end Token

section

variable {Rx : Type} [PatternEngine Rx]

/-- Tokens of a text without regions: they are plain texts, and all matches of a pattern for
punctuation. -/
structure GapOf (punctuation : Rx) (text : List Char) (tokens : List Token) : Prop where
  whole : tokens.flatMap Token.leafText = text
  kinds : ∀ t ∈ tokens, (∃ s, s ≠ [] ∧ t = .plain s) ∨ ∃ s, t = .punctuation s
  found : List.Forall₂ (fun m piece => ∃ before after, text = before ++ piece ++ after ∧
      byteCount before = m.start ∧ m.start + byteCount piece = m.stop)
    (spans punctuation false text) (tokens.filterMap Token.punctuationText?)

/-- The tokens of a text with some regions. `pos` is the place where the text starts. -/
inductive Lays (punctuation : Rx) : Nat → List Char → List Region → List Token → Prop
  | last {pos : Nat} {text : List Char} {tokens : List Token}
      (gap : GapOf punctuation text tokens) : Lays punctuation pos text [] tokens
  | region {pos : Nat} {between rest : List Char} (r : Region) {regions : List Region}
      {gapTokens tokens : List Token} (gap : GapOf punctuation between gapTokens)
      (start : r.start = pos + between.length)
      (later : Lays punctuation (r.start + r.text.length) rest regions tokens) :
      Lays punctuation pos (between ++ r.text ++ rest) (r :: regions)
        (gapTokens ++ .leaf r.category r.text :: tokens)

end

namespace Token

@[simp] theorem punctuationText?_plain (text : List Char) :
    (plain text).punctuationText? = none := rfl

@[simp] theorem punctuationText?_punctuation (text : List Char) :
    (punctuation text).punctuationText? = some text := by
  simp [punctuation, punctuationText?]

end Token

/-- The nodes with a text that are no punctuation, and the places where they start. -/
def Token.regionsFrom (pos : Nat) : List Token → List Region
  | [] => []
  | .node .punctuation inner :: rest => regionsFrom (pos + inner.leafText.length) rest
  | .node category (.text s) :: rest =>
    ⟨pos, category, s.toList⟩ :: regionsFrom (pos + s.toList.length) rest
  | token :: rest => regionsFrom (pos + token.leafText.length) rest

section

variable {Rx : Type} [PatternEngine Rx] {punctuation : Rx} {pos : Nat} {text : List Char}
  {regions : List Region} {tokens : List Token}

theorem Lays.flatMap_leafText (lays : Lays punctuation pos text regions tokens) :
    tokens.flatMap Token.leafText = text := by
  induction lays with
  | last gap => exact gap.whole
  | region r gap start later ih => simp [gap.whole, ih]

theorem GapOf.regionsFrom (gap : GapOf punctuation text tokens) (pos : Nat) (later : List Token) :
    Token.regionsFrom pos (tokens ++ later) = Token.regionsFrom (pos + text.length) later := by
  rw [← gap.whole]
  have kinds := gap.kinds
  clear gap
  induction tokens generalizing pos with
  | nil => rfl
  | cons t rest ih =>
    obtain ⟨first, others⟩ := List.forall_mem_cons.mp kinds
    have passed : Token.regionsFrom pos (t :: (rest ++ later)) =
        Token.regionsFrom (pos + t.leafText.length) (rest ++ later) := by
      rcases first with ⟨s, -, rfl⟩ | ⟨s, rfl⟩
      · rfl
      · simp [Token.punctuation, Token.regionsFrom]
    rw [List.cons_append, passed, ih _ others, List.flatMap_cons, List.length_append, Nat.add_assoc]

/-- The regions of a text are those of its tokens that are no punctuation. -/
theorem Lays.regionsFrom (lays : Lays punctuation pos text regions tokens)
    (others : ∀ r ∈ regions, r.category ≠ .punctuation) :
    Token.regionsFrom pos tokens = regions := by
  induction lays with
  | @last pos text tokens gap => simpa [Token.regionsFrom] using gap.regionsFrom pos []
  | @region pos between rest r regions gapTokens tokens gap start later ih =>
    obtain ⟨other, others⟩ := List.forall_mem_cons.mp others
    have leaf : Token.regionsFrom r.start (.leaf r.category r.text :: tokens) =
        r :: Token.regionsFrom (r.start + r.text.length) tokens := by
      obtain ⟨start, category, text⟩ := r
      cases category with
      | punctuation => exact absurd rfl other
      | _ => simp [Token.leaf, Token.regionsFrom]
    rw [gap.regionsFrom, ← start, leaf, ih others]

end

namespace Lexer

variable {Rx : Type}

/-! ## Gaps -/

@[simp] theorem flatMap_plainToken (text : List Char) :
    (plainToken text).flatMap Token.leafText = text := by
  cases text <;> simp [plainToken]

@[simp] theorem filterMap_plainToken (text : List Char) :
    (plainToken text).filterMap Token.punctuationText? = [] := by
  cases text <;> simp [plainToken]

theorem mem_plainToken {text : List Char} {t : Token} (membership : t ∈ plainToken text) :
    text ≠ [] ∧ t = .plain text := by
  cases text with
  | nil => simp [plainToken] at membership
  | cons c rest => simpa [plainToken] using membership

theorem flatMap_gapTokens (found : List Match) (tail : List Char) :
    (gapTokens found tail).flatMap Token.leafText = Match.whole found ++ tail := by
  induction found with
  | nil => simp [gapTokens]
  | cons m rest ih => simpa [gapTokens] using ih

theorem filterMap_gapTokens (found : List Match) (tail : List Char) :
    (gapTokens found tail).filterMap Token.punctuationText? = found.map (·.text) := by
  induction found with
  | nil => simp [gapTokens]
  | cons m rest ih => simpa [gapTokens] using ih

theorem mem_gapTokens {found : List Match} {tail : List Char} {t : Token}
    (membership : t ∈ gapTokens found tail) :
    (∃ s, s ≠ [] ∧ t = .plain s) ∨ ∃ s, t = .punctuation s := by
  rcases List.mem_append.mp membership with inMatch | inTail
  · obtain ⟨m, -, inside⟩ := List.mem_flatMap.mp inMatch
    rcases List.mem_append.mp inside with before | here
    · exact .inl ⟨m.gap, mem_plainToken before⟩
    · exact .inr ⟨m.text, List.mem_singleton.mp here⟩
  · exact .inl ⟨tail, mem_plainToken inTail⟩

/-- The texts of matches stand at their spans. `before` is the text before the first gap. -/
theorem forall₂_spans (before : List Char) (ms : List Match) (tail : List Char) :
    List.Forall₂ (fun m piece => ∃ before' after,
        before ++ Match.whole ms ++ tail = before' ++ piece ++ after ∧
          byteCount before' = m.start ∧ m.start + byteCount piece = m.stop)
      (Match.spans (byteCount before) ms) (ms.map (·.text)) := by
  induction ms generalizing before with
  | nil => exact .nil
  | cons m rest ih =>
    have later := ih (before ++ m.gap ++ m.text)
    simp only [byteCount_append, Match.whole_cons, List.append_assoc] at later ⊢
    refine .cons ⟨before ++ m.gap, Match.whole rest ++ tail, ?_, byteCount_append .., rfl⟩ ?_
    · simp
    · simpa [Nat.add_assoc] using later

section

variable [PatternEngine Rx]

theorem gapOf_tokenizeGap (lawful : PatternEngine.Lawful Rx) (l : Lexer Rx) (gap : List Char) :
    GapOf l.punctuation gap (l.tokenizeGap gap) := by
  obtain ⟨ms, tail, rfl, same, tokens⟩ := l.exists_tokenizeGap? lawful gap
  rw [tokenizeGap, tokens, Option.getD_some]
  constructor
  case whole => exact flatMap_gapTokens ms tail
  case kinds => exact fun _ membership => mem_gapTokens membership
  case found =>
    rw [← same, filterMap_gapTokens]
    exact forall₂_spans [] ms tail

theorem flatMap_tokenizeGap (lawful : PatternEngine.Lawful Rx) (l : Lexer Rx) (gap : List Char) :
    (l.tokenizeGap gap).flatMap Token.leafText = gap :=
  (l.gapOf_tokenizeGap lawful gap).whole

end

/-! ## Regions -/

section

variable {l : Lexer Rx}

theorem category?_eq_some_iff {names : List String} {category : Category} :
    l.category? names = some category ↔
      ∃ i rule, l.rules[i]? = some rule ∧ rule.category = category ∧ groupName i ∈ names ∧
        ∀ j < i, groupName j ∉ names := by
  simp only [category?, Option.map_eq_some_iff, List.find?_eq_some_iff_getElem, Prod.exists,
    List.getElem_zipIdx, List.length_zipIdx, Prod.mk.injEq, List.contains_iff_mem]
  constructor
  · rintro ⟨rule, i, ⟨tookPart, j, bound, ⟨here, rfl⟩, earlier⟩, rfl⟩
    refine ⟨j, rule, List.getElem?_eq_some_iff.mpr ⟨bound, here⟩, rfl, by simpa using tookPart, ?_⟩
    intro k below
    simpa using earlier k below
  · rintro ⟨i, rule, here, rfl, tookPart, earlier⟩
    obtain ⟨bound, here⟩ := List.getElem?_eq_some_iff.mp here
    refine ⟨rule, i, ⟨tookPart, i, bound, ⟨here, by omega⟩, ?_⟩, rfl⟩
    intro k below
    simpa using earlier k below

theorem isSome_category? (l : Lexer Rx) (names : List String) :
    (l.category? names).isSome =
      (List.range l.rules.length).any fun i => names.contains (groupName i) := by
  rw [category?, Option.isSome_map, Bool.eq_iff_iff, List.find?_isSome, List.any_eq_true]
  simp only [Prod.exists, List.mem_zipIdx_iff_getElem?, List.mem_range]
  constructor
  · rintro ⟨rule, i, here, tookPart⟩
    exact ⟨i, (List.getElem?_eq_some_iff.mp here).1, tookPart⟩
  · rintro ⟨i, bound, tookPart⟩
    exact ⟨l.rules[i], i, List.getElem?_eq_getElem bound, tookPart⟩

theorem regionCategory?_eq_some_iff {m : Match} {category : Category} :
    l.regionCategory? m = some category ↔ m.text ≠ [] ∧ l.category? m.names = some category := by
  simp [regionCategory?]

theorem isSome_regionCategory? (l : Lexer Rx) (start : Nat) (m : Match) :
    (l.regionCategory? m).isSome =
      Span.isRegion l.rules ⟨start, start + byteCount m.text, m.names⟩ := by
  rw [regionCategory?, Span.isRegion, ← isSome_category?]
  by_cases empty : m.text = []
  · simp [empty]
  · have filled : byteCount m.text ≠ 0 := mt byteCount_eq_zero_iff.mp empty
    simp [empty, filled]

/-- The regions among some matches. `pos` is the place where the first gap starts. -/
def regionsOf (l : Lexer Rx) : Nat → List Match → List Region
  | _, [] => []
  | pos, m :: rest =>
    let start := pos + m.gap.length
    let later := l.regionsOf (start + m.text.length) rest
    match l.regionCategory? m with
    | some category => ⟨start, category, m.text⟩ :: later
    | none => later

theorem category_of_mem_regionsOf {pos : Nat} {ms : List Match} {r : Region}
    (member : r ∈ l.regionsOf pos ms) : ∃ rule ∈ l.rules, rule.category = r.category := by
  induction ms generalizing pos with
  | nil => cases member
  | cons m rest ih =>
    rw [regionsOf] at member
    cases here : l.regionCategory? m with
    | none =>
      rw [here] at member
      exact ih member
    | some category =>
      rw [here] at member
      rcases List.mem_cons.mp member with rfl | later
      · obtain ⟨-, named⟩ := regionCategory?_eq_some_iff.mp here
        obtain ⟨i, rule, listed, same, -⟩ := category?_eq_some_iff.mp named
        exact ⟨rule, List.mem_of_getElem? listed, same⟩
      · exact ih later

/-- The regions among some matches are those of their spans. `before` is the text before the first
gap. -/
theorem forall₂_marks (l : Lexer Rx) (before : List Char) (ms : List Match) (tail : List Char) :
    List.Forall₂ (Marks l.rules (before ++ Match.whole ms ++ tail))
      ((Match.spans (byteCount before) ms).filter (Span.isRegion l.rules))
      (l.regionsOf before.length ms) := by
  induction ms generalizing before with
  | nil => exact .nil
  | cons m rest ih =>
    have later := ih (before ++ m.gap ++ m.text)
    simp only [byteCount_append, List.length_append, Match.whole_cons, List.append_assoc]
      at later ⊢
    rw [Match.spans, List.filter_cons, ← l.isSome_regionCategory?, regionsOf]
    cases here : l.regionCategory? m with
    | none => simpa [Nat.add_assoc] using later
    | some category =>
      obtain ⟨-, named⟩ := regionCategory?_eq_some_iff.mp here
      have place : ∃ before' after,
          before ++ (m.gap ++ (m.text ++ (Match.whole rest ++ tail))) =
              before' ++ m.text ++ after ∧ before'.length = before.length + m.gap.length ∧
            byteCount before' = byteCount before + byteCount m.gap ∧
            byteCount before + byteCount m.gap + byteCount m.text =
              byteCount before + byteCount m.gap + byteCount m.text :=
        ⟨before ++ m.gap, Match.whole rest ++ tail, by simp, List.length_append,
          byteCount_append .., rfl⟩
      rw [Option.isSome_some, if_pos rfl]
      refine .cons ⟨place, category?_eq_some_iff.mp named⟩ ?_
      simpa [Nat.add_assoc] using later

end

section

variable [PatternEngine Rx] {l : Lexer Rx}

/-- The tokens of a text with some regions, as the lexer takes them: each gap on its own, and each
region as a leaf. `pos` is the place where the text starts. -/
inductive Cut (l : Lexer Rx) : Nat → List Char → List Region → List Token → Prop
  | last {pos : Nat} {text : List Char} : Cut l pos text [] (l.tokenizeGap text)
  | region {pos : Nat} {between rest : List Char} (r : Region) {regions : List Region}
      {tokens : List Token} (start : r.start = pos + between.length)
      (later : Cut l (r.start + r.text.length) rest regions tokens) :
      Cut l pos (between ++ r.text ++ rest) (r :: regions)
        (l.tokenizeGap between ++ .leaf r.category r.text :: tokens)

theorem Cut.lays (lawful : PatternEngine.Lawful Rx) {pos : Nat} {text : List Char}
    {regions : List Region} {tokens : List Token} (cut : l.Cut pos text regions tokens) :
    Lays l.punctuation pos text regions tokens := by
  induction cut with
  | last => exact .last (l.gapOf_tokenizeGap lawful _)
  | region r start _ ih => exact .region r (l.gapOf_tokenizeGap lawful _) start ih

/-- The loop over the matches cuts their text at the regions among them. -/
theorem cut_tokensFrom (l : Lexer Rx) (pos : Nat) (gap tail : List Char) (ms : List Match) :
    l.Cut pos (gap ++ Match.whole ms ++ tail) (l.regionsOf (pos + gap.length) ms)
      (l.tokensFrom gap tail ms) := by
  induction ms generalizing pos gap with
  | nil =>
    rw [Match.whole_nil, List.append_nil]
    exact .last
  | cons m ms ih =>
    rw [tokensFrom, regionsOf]
    cases l.regionCategory? m with
    | none =>
      have later := ih pos (gap ++ m.gap ++ m.text)
      simpa [Nat.add_assoc] using later
    | some category =>
      have later := ih (pos + gap.length + m.gap.length + m.text.length) []
      rw [List.nil_append, List.length_nil, Nat.add_zero] at later
      have start : pos + gap.length + m.gap.length = pos + (gap ++ m.gap).length := by
        rw [List.length_append, Nat.add_assoc]
      simpa using Cut.region ⟨_, category, m.text⟩ start later

/-- A text is cut at its regions, which are those of the spans that the engine tells of. -/
theorem exists_cut (lawful : PatternEngine.Lawful Rx) (l : Lexer Rx) (text : List Char) :
    ∃ regions children, l.tokenize? text = some (.list children) ∧
      List.Forall₂ (Marks l.rules text)
        ((l.regionSpans text).filter (Span.isRegion l.rules)) regions ∧
      (∀ r ∈ regions, ∃ rule ∈ l.rules, rule.category = r.category) ∧
      l.Cut 0 text regions children := by
  obtain ⟨ms, tail, rfl, same⟩ := Span.inOrder_iff.mp (l.regionSpans_inOrder lawful text)
  refine ⟨l.regionsOf 0 ms, l.tokensFrom [] tail ms, tokenize?_eq lawful rfl same.symm, ?_,
    fun r => category_of_mem_regionsOf, l.cut_tokensFrom 0 [] tail ms⟩
  rw [← same]
  exact l.forall₂_marks [] ms tail

end

end Lexer

namespace RegionLexer

variable {Rx : Type} [PatternEngine Rx]

/-- Where an engine tells of matches in order, rules and a pattern for punctuation that it compiles
make a lexer. Its tokenizing succeeds and loses no character of the text: the tokens are the regions,
which are the matches of the rules put together, each with the category of the first rule that took
part, and between two regions the texts and punctuation of a gap. -/
theorem tokenize_lays (lawful : PatternEngine.Lawful Rx) {rules : List Rule} {regions : Option Rx}
    (compiled : Compiled rules regions) {punctuation : String} {p : Rx}
    (compiles : compile? punctuation = some p) :
    ∃ l : Lexer Rx, ofRules? rules punctuation = some l ∧ ∀ text : String, ∃ found children,
      l.tokenize? text.toList = some (.list children) ∧
      Tokenizer.tokenize l text = (.ok (.list children), l) ∧
      Token.leafText (.list children) = text.toList ∧
      List.Forall₂ (Marks rules text.toList)
        ((regions.elim [] fun p => spans p true text.toList).filter (Span.isRegion rules)) found ∧
      Lays p 0 text.toList found children := by
  refine ⟨⟨rules, regions, p⟩, ofRules?_eq_some_iff.mpr ⟨rfl, compiled, compiles⟩, fun text => ?_⟩
  obtain ⟨found, children, tokens, marks, -, cut⟩ :=
    Lexer.exists_cut lawful ⟨rules, regions, p⟩ text.toList
  have lays := cut.lays lawful
  refine ⟨found, children, tokens, ?_, ?_, ?_, lays⟩
  · simp [Tokenizer.tokenize, Lexer.tokenize, tokens]
  · simpa using lays.flatMap_leafText
  · cases regions <;> exact marks

/-- Rules whose patterns match nothing, or leave their groups. -/
def unruly : List Rule := [⟨"a!?", .punctuation⟩, ⟨"a)|(b", .comment⟩, ⟨"c*", .string⟩]

theorem tokenize_lays_unruly :
    PatternEngine.Lawful Program ∧ ∃ (regions : Option Program) (p : Program),
      Compiled unruly regions ∧ compile? "!*" = some p ∧
      ∃ l : RegionLexer, ofRules? unruly "!*" = some l ∧ ∃ found children,
        l.tokenize? "!ab cc!".toList = some (.list children) ∧
        Tokenizer.tokenize l "!ab cc!" = (.ok (.list children), l) ∧
        Token.leafText (.list children) = "!ab cc!".toList ∧
        List.Forall₂ (Marks unruly "!ab cc!".toList)
          ((regions.elim [] fun p => spans p true "!ab cc!".toList).filter (Span.isRegion unruly))
          found ∧
        Lays p 0 "!ab cc!".toList found children := by
  obtain ⟨⟨_, regions, p⟩, made⟩ : ∃ l : RegionLexer, ofRules? unruly "!*" = some l := by
    apply Option.isSome_iff_exists.mp
    decide +kernel
  obtain ⟨-, compiled, compiles⟩ := ofRules?_eq_some_iff.mp made
  obtain ⟨l, made, texts⟩ := tokenize_lays Program.lawful compiled compiles
  exact ⟨Program.lawful, regions, p, compiled, compiles, l, made, texts "!ab cc!"⟩

end RegionLexer

end BracketColoring

import BracketColoring.Region

/-!
# The pattern of the rules

The rules of a lexer are compiled together, as one text (`Alternation`). A lexer can be made exactly
when an engine compiles that text and the pattern for punctuation (`ofRules?_eq_some_iff`); what it
has of the rules is the pattern that they were compiled to (`Compiled`).
-/

namespace BracketColoring

open PatternEngine (compile?)

/-- The text of some rules, of which the first has an index: each stands in a group that is named by
its index, and bars stand between the groups. -/
inductive Alternation : Nat → List Rule → String → Prop
  | last {i : Nat} {rule : Rule} :
      Alternation i [rule] ("(?P<__r" ++ toString i ++ ">" ++ rule.pattern ++ ")")
  | more {i : Nat} {rule next : Rule} {rest : List Rule} {text : String}
      (later : Alternation (i + 1) (next :: rest) text) :
      Alternation i (rule :: next :: rest)
        ("(?P<__r" ++ toString i ++ ">" ++ rule.pattern ++ ")" ++ "|" ++ text)

/-- What an engine compiles some rules to. Without rules there is nothing to compile. -/
inductive Compiled {Rx : Type} [PatternEngine Rx] : List Rule → Option Rx → Prop
  | nothing : Compiled [] none
  | together {rules : List Rule} {text : String} {p : Rx} (spelled : Alternation 0 rules text)
      (compiles : compile? text = some p) : Compiled rules (some p)

namespace RegionLexer

/-- The part of the pattern that belongs to a rule. -/
def named (rule : Rule × Nat) : String := "(?P<" ++ groupName rule.2 ++ ">" ++ rule.1.pattern ++ ")"

theorem named_eq (rule : Rule) (i : Nat) :
    named (rule, i) = "(?P<__r" ++ toString i ++ ">" ++ rule.pattern ++ ")" := by
  have opening : "(?P<" ++ groupName i = "(?P<__r" ++ toString i := String.append_assoc.symm
  rw [named, opening]

theorem alternation_iff {i : Nat} {rules : List Rule} {text : String} :
    Alternation i rules text ↔ rules ≠ [] ∧ text = "|".intercalate ((rules.zipIdx i).map named) := by
  induction rules generalizing i text with
  | nil =>
    constructor
    · rintro ⟨⟩
    · rintro ⟨filled, -⟩
      exact absurd rfl filled
  | cons rule rest ih =>
    rw [and_iff_right (List.cons_ne_nil rule rest), List.zipIdx_cons, List.map_cons, named_eq]
    cases rest with
    | nil =>
      rw [List.zipIdx_nil, List.map_nil, String.intercalate_singleton]
      constructor
      · rintro ⟨⟩
        rfl
      · rintro rfl
        exact .last
    | cons next rest =>
      rw [List.zipIdx_cons, List.map_cons, String.intercalate_cons_cons, ← List.map_cons,
        ← List.zipIdx_cons]
      constructor
      · rintro ⟨⟩
        next text later => rw [(ih.mp later).2]
      · rintro rfl
        exact .more (ih.mpr ⟨List.cons_ne_nil next rest, rfl⟩)

theorem alternation_regionPattern {rules : List Rule} {text : String} :
    Alternation 0 rules text ↔ rules ≠ [] ∧ text = regionPattern rules := alternation_iff

variable {Rx : Type} [PatternEngine Rx] {rules : List Rule} {punctuation : String} {l : Lexer Rx}

theorem compiled_nil_iff {regions : Option Rx} : Compiled [] regions ↔ regions = none := by
  constructor
  · rintro ⟨⟩
    · rfl
    · next spelled => exact absurd rfl (alternation_iff.mp spelled).1
  · rintro rfl
    exact .nothing

theorem compiled_cons_iff {rule : Rule} {regions : Option Rx} :
    Compiled (rule :: rules) regions ↔
      ∃ p, compile? (regionPattern (rule :: rules)) = some p ∧ some p = regions := by
  constructor
  · rintro ⟨⟩
    next compiles spelled =>
      rw [(alternation_regionPattern.mp spelled).2] at compiles
      exact ⟨_, compiles, rfl⟩
  · rintro ⟨p, compiles, rfl⟩
    exact .together (alternation_regionPattern.mpr ⟨List.cons_ne_nil rule rules, rfl⟩) compiles

theorem ofRules?_eq_some_iff :
    ofRules? rules punctuation = some l ↔
      l.rules = rules ∧ Compiled rules l.regions ∧ compile? punctuation = some l.punctuation := by
  obtain ⟨rules', regions, p⟩ := l
  cases rules with
  | nil =>
    simp only [ofRules?, List.isEmpty_nil, ↓reduceIte, Option.bind_eq_bind, Option.bind_some,
      Option.pure_def, Option.bind_eq_some_iff, Option.some.injEq, Lexer.mk.injEq,
      compiled_nil_iff]
    constructor
    · rintro ⟨_, compiles, rfl, rfl, rfl⟩
      exact ⟨rfl, rfl, compiles⟩
    · rintro ⟨rfl, rfl, compiles⟩
      exact ⟨p, compiles, rfl, rfl, rfl⟩
  | cons rule rest =>
    simp only [ofRules?, List.isEmpty_cons, Bool.false_eq_true, ↓reduceIte, Option.bind_eq_bind,
      Option.pure_def, Option.bind_eq_some_iff, Option.map_eq_some_iff, Option.some.injEq,
      Lexer.mk.injEq, compiled_cons_iff]
    constructor
    · rintro ⟨_, together, _, compiles, rfl, rfl, rfl⟩
      exact ⟨rfl, together, compiles⟩
    · rintro ⟨rfl, together, compiles⟩
      exact ⟨regions, together, p, compiles, rfl, rfl, rfl⟩

end RegionLexer

end BracketColoring

import BracketColoring.Proofs.Literals.Bindings
import BracketColoring.Proofs.Occurrence.Leaves
import BracketColoring.Proofs.Position.Advance

/-!
# Occurrences cut out of a text

The leaves of a tree can also be searched by bytes: a literal is found from one byte up to another,
and what lies between two literals is cut out of the text. `Token.guardedOccurrences` is the search
in which every cut is made; it could fail inside of a character, but never does, and it gives the
occurrences of the tree (`guardedOccurrences_eq`).
-/

namespace BracketColoring

theorem dropBytes?_append (before after : List Char) :
    dropBytes? (byteCount before) (before ++ after) = some after :=
  dropBytes?_eq_some_iff.mpr ⟨before, rfl, rfl⟩

namespace Literals

/-- Locates the literals at some bytes of a text, behind the byte up to which it is located. A
literal that stands for nothing is passed over. -/
def guardedLocate (t : Literals) (text : List Char) (p : Position) (upTo : Nat) :
    List (Nat × Nat) → Option (List Occurrence × Position)
  | [] => do
    let rest ← dropBytes? upTo text
    return ([], ← p.guardedAdvance rest)
  | (start, stop) :: spans => do
    let literal ← slice? text start stop
    match t.resolve? (String.ofList literal) with
    | none => guardedLocate t text p upTo spans
    | some (pair, role) =>
      let gap ← slice? text upTo start
      let first ← p.guardedAdvance gap
      let last ← first.guardedAdvance literal
      let (os, q) ← guardedLocate t text last stop spans
      return (⟨⟨first, last⟩, String.ofList literal, pair, role⟩ :: os, q)

def guardedLeaf (t : Literals) (p : Position) (leaf : Leaf) : Option (List Occurrence × Position) :=
  if leaf.searched then
    t.guardedLocate leaf.text p 0 (Found.byteSpans 0 (t.scan leaf.text).1)
  else (p.guardedAdvance leaf.text).map fun q => ([], q)

def guardedLeaves (t : Literals) (p : Position) : List Leaf → Option Mapped
  | [] => some ⟨[], p⟩
  | leaf :: rest => do
    let (os, q) ← t.guardedLeaf p leaf
    let mapped ← guardedLeaves t q rest
    return ⟨os ++ mapped.occurrences, mapped.finish⟩

variable {t : Literals}

theorem guardedLocate_eq {found : List Found} {text tail : List Char} (p : Position)
    (before : List Char)
    (resolved : ∀ f ∈ found,
      t.resolve? f.binding.literal = some (f.binding.pair, f.binding.role))
    (whole : text = before ++ found.flatMap Found.whole ++ tail) :
    t.guardedLocate text p (byteCount before) (Found.byteSpans (byteCount before) found) =
      some ((locate p found).1, (locate p found).2.advance tail) := by
  induction found generalizing p before with
  | nil =>
    subst whole
    simp [Found.byteSpans, guardedLocate, locate, dropBytes?_append, Position.guardedAdvance_eq]
  | cons f rest ih =>
    obtain ⟨known, resolved⟩ := List.forall_mem_cons.mp resolved
    rw [List.flatMap_cons] at whole
    have gap : slice? text (byteCount before) (byteCount before + byteCount f.gap) = some f.gap :=
      slice?_eq_some_iff.mpr ⟨before, f.binding.literal.toList ++ rest.flatMap Found.whole ++ tail,
        by simp [whole, Found.whole], rfl, rfl⟩
    have stop : byteCount before + byteCount f.gap + f.binding.literal.utf8ByteSize =
        byteCount (before ++ f.whole) := by
      rw [← byteCount_toList, Found.whole, byteCount_append, byteCount_append, Nat.add_assoc]
    have literal : slice? text (byteCount before + byteCount f.gap) (byteCount (before ++ f.whole)) =
        some f.binding.literal.toList :=
      slice?_eq_some_iff.mpr ⟨before ++ f.gap, rest.flatMap Found.whole ++ tail,
        by simp [whole, Found.whole], byteCount_append .., by rw [byteCount_toList, stop]⟩
    have later := ih ((p.advance f.gap).advance f.binding.literal.toList) (before ++ f.whole)
      resolved (by simp [whole])
    simp only [Found.byteSpans, guardedLocate, locate, literal, gap, String.ofList_toList, known,
      Position.guardedAdvance_eq, stop, later, Option.bind_eq_bind, Option.bind_some]
    rfl

theorem guardedLeaf_eq (nonEmpty : t.NonEmpty) (distinct : t.Distinct) (p : Position)
    (leaf : Leaf) : t.guardedLeaf p leaf = some (t.mapLeaf p leaf) := by
  unfold guardedLeaf mapLeaf
  split
  · have resolved : ∀ f ∈ (t.scan leaf.text).1,
        t.resolve? f.binding.literal = some (f.binding.pair, f.binding.role) :=
      fun f found => distinct.resolve? (t.mem_bindings_of_mem_scan leaf.text f found)
    exact guardedLocate_eq p [] resolved (t.flatMap_scan nonEmpty leaf.text).symm
  · rw [Position.guardedAdvance_eq]
    rfl

theorem guardedLeaves_eq (nonEmpty : t.NonEmpty) (distinct : t.Distinct) (p : Position)
    (leaves : List Leaf) : t.guardedLeaves p leaves = some (t.mapLeaves p leaves) := by
  induction leaves generalizing p with
  | nil => rfl
  | cons leaf rest ih =>
    simp only [guardedLeaves, mapLeaves, guardedLeaf_eq nonEmpty distinct, ih, Option.bind_eq_bind,
      Option.bind_some]
    rfl

end Literals

/-- The bracket literals of a token tree, with every piece of text cut out. -/
def Token.guardedOccurrences (root : Token) (t : Literals) : Option Mapped :=
  t.guardedLeaves .origin root.leaves

theorem Token.guardedOccurrences_eq {t : Literals} (nonEmpty : t.NonEmpty) (distinct : t.Distinct)
    (root : Token) : root.guardedOccurrences t = some (root.occurrences t) := by
  rw [guardedOccurrences, Literals.guardedLeaves_eq nonEmpty distinct, occurrences_eq_mapLeaves]

end BracketColoring

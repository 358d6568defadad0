import Mathlib.Data.String.Basic

/-!
# The order of bytes

Texts are compared by their characters, and to compare them by their bytes is the same. The first
byte of a character holds the leading bits of its code point behind a mark, which says how many
bytes follow; more bytes have a larger mark. Each byte that follows holds the next six bits.
-/

namespace BracketColoring

open String (utf8EncodeChar)

/-- The bytes of a text. -/
def bytes (text : String) : List UInt8 := text.toByteArray.data.toList

theorem length_bytes (text : String) : (bytes text).length = text.utf8ByteSize := rfl

theorem bytes_eq_flatMap (text : String) : bytes text = text.toList.flatMap utf8EncodeChar := by
  rw [bytes, ← String.utf8Encode_toList, List.utf8Encode, List.toList_data_toByteArray]

namespace CodePoint

/-- The number of bytes behind the first one of a code point. -/
def tailLength (n : Nat) : Nat :=
  if n ≤ 0x7f then 0 else if n ≤ 0x7ff then 1 else if n ≤ 0xffff then 2 else 3

/-- The mark in the first byte when so many bytes follow. -/
def mark : Nat → Nat
  | 0 => 0
  | 1 => 0xc0
  | 2 => 0xe0
  | _ => 0xf0

def lead (n : Nat) : Nat := n / 64 ^ tailLength n + mark (tailLength n)

/-- The last bytes of a code point, six bits in each. -/
def tail : Nat → Nat → List UInt8
  | 0, _ => []
  | k + 1, n => tail k (n / 64) ++ [UInt8.ofNat (n % 64 + 0x80)]

theorem toNat_lt (c : Char) : c.toNat < 0x110000 := by
  have valid := c.valid
  simp only [UInt32.isValidChar, Nat.isValidChar] at valid
  change c.val.toNat < _
  omega

theorem encode_eq (c : Char) :
    utf8EncodeChar c = UInt8.ofNat (lead c.toNat) :: tail (tailLength c.toNat) c.toNat := by
  have bound := toNat_lt c
  have number : c.val.toNat = c.toNat := rfl
  unfold utf8EncodeChar lead tailLength
  dsimp only
  rw [number]
  split_ifs
  · rw [Nat.pow_zero, Nat.div_one]
    rfl
  · have fits : c.toNat / 64 % 0x20 = c.toNat / 64 := Nat.mod_eq_of_lt (by omega)
    rw [fits]
    rfl
  · have fits : c.toNat / 4096 % 0x10 = c.toNat / 4096 := Nat.mod_eq_of_lt (by omega)
    rw [fits]
    rfl
  · have fits : c.toNat / 262144 % 0x08 = c.toNat / 262144 := Nat.mod_eq_of_lt (by omega)
    have inner : c.toNat / 4096 = c.toNat / 64 / 64 := (Nat.div_div_eq_div_mul _ 64 64).symm
    rw [fits, inner]
    rfl

theorem lead_lt (c : Char) : lead c.toNat < 256 := by
  have bound := toNat_lt c
  unfold lead tailLength
  split_ifs <;> simp only [mark, Nat.reducePow] <;> omega

/-- Where the numbers of bytes differ, the marks decide. -/
theorem lead_lt_of_tailLength_ne {n m : Nat} (before : n < m)
    (apart : tailLength n ≠ tailLength m) : lead n < lead m := by
  unfold tailLength at apart
  unfold lead tailLength
  split_ifs at apart ⊢ <;> simp only [mark, Nat.reducePow] <;> omega

/-- The first byte decides, unless the same leading bits are behind the same mark. -/
theorem lead_of_lt {n m : Nat} (before : n < m) :
    lead n < lead m ∨ lead n = lead m ∧ tailLength n = tailLength m ∧
      n / 64 ^ tailLength m = m / 64 ^ tailLength m := by
  by_cases length : tailLength n = tailLength m
  · have ordered := Nat.div_le_div_right (c := 64 ^ tailLength m) (Nat.le_of_lt before)
    rw [lead, lead, length]
    rcases Nat.lt_or_eq_of_le ordered with less | equal
    · exact .inl (Nat.add_lt_add_right less _)
    · exact .inr ⟨congrArg (· + _) equal, rfl, equal⟩
  · exact .inl (lead_lt_of_tailLength_ne before length)

theorem tail_append_lt {k n m : Nat} (before : n < m) (same : n / 64 ^ k = m / 64 ^ k)
    (a b : List UInt8) : tail k n ++ a < tail k m ++ b := by
  induction k generalizing n m a b with
  | zero =>
    simp only [Nat.pow_zero, Nat.div_one] at same
    exact absurd same (Nat.ne_of_lt before)
  | succ k ih =>
    rw [Nat.pow_succ', ← Nat.div_div_eq_div_mul, ← Nat.div_div_eq_div_mul] at same
    simp only [tail, List.append_assoc]
    have ordered := Nat.div_le_div_right (c := 64) (Nat.le_of_lt before)
    rcases Nat.lt_or_eq_of_le ordered with earlier | equal
    · exact ih earlier same _ _
    · -- All bits but the last six are the same, so the last byte decides.
      rw [equal]
      apply List.append_left_lt
      apply List.cons_lt_cons_iff.mpr
      left
      simp only [UInt8.lt_iff_toNat_lt, UInt8.toNat_ofNat']
      omega

theorem encode_append_lt {c d : Char} (before : c < d) (a b : List UInt8) :
    utf8EncodeChar c ++ a < utf8EncodeChar d ++ b := by
  have number : c.toNat < d.toNat := before
  rw [encode_eq, encode_eq, List.cons_append, List.cons_append]
  apply List.cons_lt_cons_iff.mpr
  rcases lead_of_lt number with less | ⟨equal, length, leading⟩
  · left
    simp only [UInt8.lt_iff_toNat_lt, UInt8.toNat_ofNat']
    rw [Nat.mod_eq_of_lt (lead_lt c), Nat.mod_eq_of_lt (lead_lt d)]
    exact less
  · right
    rw [equal, length]
    exact ⟨rfl, tail_append_lt number leading a b⟩

end CodePoint

theorem flatMap_encode_lt {a b : List Char} (before : a < b) :
    a.flatMap utf8EncodeChar < b.flatMap utf8EncodeChar := by
  induction before with
  | @nil c rest =>
    have filled : (c :: rest).flatMap utf8EncodeChar ≠ [] := by simp
    rcases List.exists_cons_of_ne_nil filled with ⟨first, others, spelled⟩
    rw [spelled]
    exact List.nil_lt_cons first others
  | cons later ih => exact List.append_left_lt ih
  | rel before => exact CodePoint.encode_append_lt before _ _

theorem bytes_lt_bytes {a b : String} : bytes a < bytes b ↔ a < b := by
  have forward : ∀ {a b : String}, a < b → bytes a < bytes b := by
    intro a b before
    rw [bytes_eq_flatMap, bytes_eq_flatMap]
    exact flatMap_encode_lt before
  refine ⟨fun less => ?_, forward⟩
  rcases lt_trichotomy a b with before | rfl | behind
  · exact before
  · exact absurd less (List.lt_irrefl _)
  · exact absurd less (List.lt_asymm (forward behind))

end BracketColoring

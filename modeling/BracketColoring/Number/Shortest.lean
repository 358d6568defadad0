import BracketColoring.Number.Binary64

/-!
# The shortest decimal of a double

The digits of a double are the fewest that read back as it. For one digit, two digits and so on,
the two neighbours of the value on the grid of decimals with that many digits are tried; the first
grid with a neighbour that rounds to the double wins, and of two such neighbours the nearer.
-/

namespace BracketColoring

/-- A positive decimal: `digits * 10 ^ exponent`. -/
structure Decimal where
  digits : Nat
  exponent : Int
deriving DecidableEq, Repr, Inhabited

namespace Decimal

/-- Drops trailing zeros; `fuel` bounds their number. -/
def normalize : Nat → Decimal → Decimal
  | 0, d => d
  | fuel + 1, d =>
    if d.digits % 10 = 0 ∧ d.digits ≠ 0 then normalize fuel ⟨d.digits / 10, d.exponent + 1⟩ else d

end Decimal

namespace Binary64

/-- The decimals that round to a double lie between two ratios with this common denominator; the
ends count when the mantissa is even. -/
structure Neighborhood where
  low : Nat
  value : Nat
  high : Nat
  den : Nat
  closed : Bool

/-- Below a power of two the doubles lie twice as close, so the lower half gap is a quarter. -/
def neighborhood (x : Binary64) : Neighborhood :=
  let below := if x.mantissa = Nat.pow 2 52 ∧ minExponent < x.exponent then 1 else 2
  let (scale, den) :=
    if 2 ≤ x.exponent then (Nat.pow 2 (x.exponent - 2).toNat, 1)
    else (1, Nat.pow 2 (2 - x.exponent).toNat)
  { low := (4 * x.mantissa - below) * scale
    value := 4 * x.mantissa * scale
    high := (4 * x.mantissa + 2) * scale
    den
    closed := x.mantissa % 2 == 0 }

/-- Whether `digits * 10 ^ exponent` lies in the neighbourhood. -/
def Neighborhood.contains (b : Neighborhood) (d : Decimal) : Bool :=
  let (left, scale) :=
    if 0 ≤ d.exponent then (d.digits * Nat.pow 10 d.exponent.toNat * b.den, 1)
    else (d.digits * b.den, Nat.pow 10 (-d.exponent).toNat)
  if b.closed then decide (b.low * scale ≤ left) && decide (left ≤ b.high * scale)
  else decide (b.low * scale < left) && decide (left < b.high * scale)

/-- The number of times ten divides into the integral part of a ratio; `fuel` bounds it. -/
def decimalDigits : Nat → Nat → Nat
  | 0, _ => 0
  | fuel + 1, n => if n < 10 then 0 else decimalDigits fuel (n / 10) + 1

def leadingExponent (num den : Nat) : Int :=
  if den ≤ num then decimalDigits (num.log2 + 1) (num / den)
  else
    -- the smallest shift by a power of ten that makes the ratio at least one
    let k := decimalDigits (den.log2 + 1) (den / num)
    if num * Nat.pow 10 k < den then -(k + 1 : Int) else -(k : Int)

/-- The value's neighbour on the grid of multiples of `10 ^ exponent` that reads back, the nearer of
two, and of two equally near the even one. -/
def Neighborhood.pick? (b : Neighborhood) (exponent : Int) : Option Decimal :=
  let (num, den) :=
    if 0 ≤ exponent then (b.value, b.den * Nat.pow 10 exponent.toNat)
    else (b.value * Nat.pow 10 (-exponent).toNat, b.den)
  let floor := num / den
  let rest := 2 * (num % den)
  let lower : Decimal := ⟨floor, exponent⟩
  let upper : Decimal := ⟨floor + 1, exponent⟩
  let lowerIn := decide (floor ≠ 0) && b.contains lower
  let upperIn := b.contains upper
  if lowerIn && upperIn then
    if rest < den then some lower
    else if den < rest then some upper
    else some (if floor % 2 = 0 then lower else upper)
  else if lowerIn then some lower
  else if upperIn then some upper
  else none

/-- The shortest decimal that reads back as a non-zero magnitude. Seventeen digits always do. -/
def shortest (x : Binary64) : Decimal :=
  let b := x.neighborhood
  let top := leadingExponent b.value b.den
  let found := (List.range 17).findSome? fun (n : Nat) => b.pick? (top - n)
  (found.getD ⟨0, 0⟩).normalize 32

end Binary64

/-- How a double is written: exponents of the first digit in `positionalFrom ..= positionalTo` give
positional notation with at least one place; any other gives scientific notation with a signed
exponent. -/
structure RealFormat where
  positionalFrom : Int
  positionalTo : Int

namespace RealFormat

def digitsOf (n : Nat) : List Char := Nat.toDigits 10 n

def padLeft (width : Nat) (cs : List Char) : List Char :=
  List.replicate (width - cs.length) '0' ++ cs

/-- The digits with the point after the digit of exponent zero. -/
def positional (d : Decimal) : List Char :=
  let ds := digitsOf d.digits
  if 0 ≤ d.exponent then ds ++ List.replicate d.exponent.toNat '0' ++ ['.', '0']
  else
    let places := (-d.exponent).toNat
    let ds := padLeft (places + 1) ds
    ds.take (ds.length - places) ++ '.' :: ds.drop (ds.length - places)

/-- The digits with the point after the first, and the exponent of the first. -/
def scientific (d : Decimal) (top : Int) : List Char :=
  let fraction := (digitsOf d.digits).drop 1
  (digitsOf d.digits).take 1 ++ (if fraction.isEmpty then [] else '.' :: fraction)
    ++ 'e' :: (if top < 0 then '-' else '+') :: digitsOf top.natAbs

def write (f : RealFormat) (x : Binary64) : String :=
  let sign := if x.negative then ['-'] else []
  let body :=
    if x.isZero then ['0', '.', '0']
    else
      let d := x.shortest
      let top : Int := d.exponent + ((digitsOf d.digits).length - 1 : Nat)
      if f.positionalFrom ≤ top ∧ top ≤ f.positionalTo then positional d
      else scientific d top
  String.ofList (sign ++ body)

end RealFormat

end BracketColoring

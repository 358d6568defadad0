/-!
# Binary floating point in exact arithmetic

A finite double is a sign and `mantissa * 2 ^ exponent`. Rounding takes a ratio of naturals to the
nearest double, a half going to the even mantissa, and fails when the ratio is too large for one.
-/

namespace BracketColoring

/-- A finite double. Zero has mantissa zero; otherwise the mantissa has 53 bits, or fewer at the
smallest exponent. -/
structure Binary64 where
  negative : Bool
  mantissa : Nat
  exponent : Int
deriving DecidableEq, Repr, Inhabited

namespace Binary64

def minExponent : Int := -1074

def maxExponent : Int := 971

def zero : Binary64 := ⟨false, 0, minExponent⟩

def isZero (x : Binary64) : Bool := x.mantissa == 0

def ratio (x : Binary64) : Nat × Nat :=
  if 0 ≤ x.exponent then (x.mantissa * Nat.pow 2 x.exponent.toNat, 1)
  else (x.mantissa, Nat.pow 2 (-x.exponent).toNat)

/-- The quotient to the nearest natural, a half going to the even one. -/
def roundDiv (num den : Nat) : Nat :=
  let floor := num / den
  let rest := 2 * (num % den)
  if rest < den then floor
  else if den < rest then floor + 1
  else floor + floor % 2

/-- `num / den` divided by `2 ^ e`, as a ratio. -/
def unscale (num den : Nat) (e : Int) : Nat × Nat :=
  if 0 ≤ e then (num, den * Nat.pow 2 e.toNat) else (num * Nat.pow 2 (-e).toNat, den)

/-- The exponent at which a positive ratio has a 53-bit integral part, no less than the smallest
exponent of a double. -/
def exponentFor (num den : Nat) : Int :=
  let guess : Int := (num.log2 : Int) - (den.log2 : Int) - 52
  let (n, d) := unscale num den guess
  let e := if n / d < Nat.pow 2 52 then guess - 1 else guess
  if e < minExponent then minExponent else e

/-- The double nearest to a positive ratio, or nothing when that is beyond the largest double. -/
def ofRatio? (num den : Nat) : Option Binary64 :=
  if num = 0 then some zero
  else
    let e := exponentFor num den
    let (n, d) := unscale num den e
    let m := roundDiv n d
    let (m, e) := if m = Nat.pow 2 53 then (Nat.pow 2 52, e + 1) else (m, e)
    if maxExponent < e then none else some ⟨false, m, e⟩

def ofNat? (n : Nat) : Option Binary64 := ofRatio? n 1

/-- The product of two magnitudes, rounded once. -/
def mul? (x y : Binary64) : Option Binary64 :=
  let (a, b) := x.ratio
  let (c, d) := y.ratio
  ofRatio? (a * c) (b * d)

/-- The quotient of two magnitudes, rounded once. -/
def div? (x y : Binary64) : Option Binary64 :=
  let (a, b) := x.ratio
  let (c, d) := y.ratio
  ofRatio? (a * d) (b * c)

def powerOfTen? (n : Nat) : Option Binary64 := ofNat? (Nat.pow 10 n)

/-- Divides by a power of ten, at most `10 ^ 308` at a time with one rounding for each division. -/
def divPowerOfTen? (x : Binary64) (n : Nat) : Option Binary64 :=
  if n ≤ 308 then (powerOfTen? n).bind x.div?
  else if x.isZero then some x
  else (powerOfTen? 308).bind x.div? |>.bind fun y => divPowerOfTen? y (n - 308)
termination_by n

/-- A significand times a power of ten: the significand is rounded to a double, and the product or
the quotient with the power of ten is rounded again. Nothing when the result is too large. -/
def ofScientific? (negative : Bool) (significand : Nat) (exponent : Int) : Option Binary64 := do
  let base ← ofNat? significand
  let magnitude ←
    if base.isZero then some base
    else if 0 ≤ exponent then
      if exponent ≤ 308 then (powerOfTen? exponent.toNat).bind base.mul? else none
    else base.divPowerOfTen? (-exponent).toNat
  return { magnitude with negative }

end Binary64

end BracketColoring

import Stencil.Word

/-!
Binary64 numbers as exact dyadic values. Rounding goes to the nearest number and, halfway, to the
even significand; every operation computes in whole numbers and rounds once.
-/

namespace Stencil

/-- The finite number `±significand · 2 ^ exponent`. `ofRatio` builds the standard form: either the
significand has 53 bits or the exponent is the least one, -1074. Zero keeps its sign. -/
structure Binary64 where
  negative : Bool
  significand : Nat
  exponent : Int
deriving DecidableEq, Repr

namespace Binary64

def leastExponent : Int := -1074
def greatestExponent : Int := 971

def zero (negative : Bool) : Binary64 := ⟨negative, 0, leastExponent⟩

def isZero (x : Binary64) : Bool := x.significand == 0

def neg (x : Binary64) : Binary64 := { x with negative := !x.negative }

/-- `num / den` to the nearest whole number, halves to the even neighbour. -/
def roundDiv (num den : Nat) : Nat :=
  let q := num / den
  let twice := 2 * (num % den)
  if twice < den then q else if den < twice then q + 1 else if q % 2 = 0 then q else q + 1

def scaled (num den : Nat) (e : Int) : Nat × Nat :=
  if 0 ≤ e then (num, den * twoTo e.toNat) else (num * twoTo (-e).toNat, den)

/-- The exponent that leaves 53 bits before the point of `num / den · 2 ^ (-e)`, but no less than
the least one. -/
def exponentFor (num den : Nat) : Int :=
  let e : Int := (num.log2 : Int) - (den.log2 : Int) - 53
  let (n, d) := scaled num den e
  max leastExponent (if n / d < twoTo 53 then e else e + 1)

/-- The number nearest to `±num / den`; `none` when it lies beyond the greatest number. -/
def ofRatio (negative : Bool) (num den : Nat) : Option Binary64 :=
  if num = 0 then some (zero negative)
  else
    let e := exponentFor num den
    let (n, d) := scaled num den e
    let m := roundDiv n d
    let (m, e) := if m = twoTo 53 then (twoTo 52, e + 1) else (m, e)
    if greatestExponent < e then none else some ⟨negative, m, e⟩

def ratio (x : Binary64) : Nat × Nat :=
  if 0 ≤ x.exponent then (x.significand * twoTo x.exponent.toNat, 1)
  else (x.significand, twoTo (-x.exponent).toNat)

def ofNat (n : Nat) : Option Binary64 := ofRatio false n 1

def ofInt (i : Int) : Option Binary64 := ofRatio (i < 0) i.natAbs 1

/-- The number nearest to `±digits · 10 ^ power`. A number with a decimal exponent far beyond the
greatest or below the least one is not computed: the number of decimal digits is known within one
from `0.30102 < log 2 / log 10 < 0.30103`. -/
def ofDecimal (negative : Bool) (digits : Nat) (power : Int) : Option Binary64 :=
  if digits = 0 then some (zero negative)
  else if 400 < power + (digits.log2 * 30102 / 100000 : Nat) then none
  else if power + ((digits.log2 + 1) * 30103 / 100000 + 1 : Nat) < -400 then some (zero negative)
  else if 0 ≤ power then ofRatio negative (digits * tenTo power.toNat) 1
  else ofRatio negative digits (tenTo (-power).toNat)

def mul (x y : Binary64) : Option Binary64 :=
  let (a, b) := x.ratio
  let (c, d) := y.ratio
  ofRatio (x.negative != y.negative) (a * c) (b * d)

def div (x y : Binary64) : Option Binary64 :=
  let (a, b) := x.ratio
  let (c, d) := y.ratio
  ofRatio (x.negative != y.negative) (a * d) (b * c)

def signedRatio (x : Binary64) : Int × Nat :=
  let (a, b) := x.ratio
  (if x.negative then -(a : Int) else a, b)

/-- A sum that is exactly zero is negative only if both terms are. -/
def add (x y : Binary64) : Option Binary64 :=
  let (a, b) := x.signedRatio
  let (c, d) := y.signedRatio
  let total := a * d + c * b
  if total = 0 then some (zero (x.negative && y.negative))
  else ofRatio (total < 0) total.natAbs (b * d)

def compare (x y : Binary64) : Ordering :=
  let (a, b) := x.signedRatio
  let (c, d) := y.signedRatio
  Ord.compare (a * d) (c * b)

def toInt? (x : Binary64) : Option Int :=
  let (a, b) := x.signedRatio
  if a % b = 0 then some (a / b) else none

end Binary64
end Stencil

import Stencil.Binary64

/-!
The shortest decimal that reads back as a given binary64 number, and among those the nearest one.
-/

namespace Stencil

structure Decimal where
  digits : Nat
  power : Int
deriving DecidableEq, Repr

namespace Decimal

def le (a b c d : Nat) : Bool := a * d ≤ c * b

def lt (a b c d : Nat) : Bool := a * d < c * b

def pow10 (k : Int) : Nat × Nat :=
  if 0 ≤ k then (tenTo k.toNat, 1) else (1, tenTo (-k).toNat)

/-- The greatest `e` with `10 ^ e ≤ num / den`, found upwards from `e`. -/
def climb (num den : Nat) : Nat → Int → Int
  | 0, e => e
  | n + 1, e =>
    let (a, b) := pow10 (e + 1)
    if le a b num den then climb num den n (e + 1) else e

def leadingPower (num den : Nat) : Int :=
  climb num den 4 ((((num.log2 : Int) - (den.log2 : Int) - 1) * 30103 - 99999) / 100000 - 1)

/-- The reals that round to `significand · 2 ^ exponent`: bounds over a common denominator. The
bounds themselves belong to it when the significand is even. -/
structure Interval where
  low : Nat
  high : Nat
  den : Nat
  closed : Bool

/-- Below a power of two the numbers lie twice as close. -/
def intervalOf (x : Binary64) : Interval :=
  let below := if x.significand = twoTo 52 && x.exponent != Binary64.leastExponent then 1 else 2
  let (scale, den) :=
    if 2 ≤ x.exponent then (twoTo (x.exponent - 2).toNat, 1) else (1, twoTo (2 - x.exponent).toNat)
  ⟨(4 * x.significand - below) * scale, (4 * x.significand + 2) * scale, den,
    x.significand % 2 = 0⟩

def Interval.contains (i : Interval) (num den : Nat) : Bool :=
  if i.closed then le i.low i.den num den && le num den i.high i.den
  else lt i.low i.den num den && lt num den i.high i.den

/-- The neighbours of `num / den` on the grid of step `10 ^ power`: the one in the interval, or the
nearer if both are in it; of two equally near, the even one. -/
def onGrid (i : Interval) (num den : Nat) (power : Int) : Option Nat :=
  let (a, b) := pow10 power
  let n := num * b
  let d := den * a
  let q := n / d
  let hit (k : Nat) : Bool := 0 < k && i.contains (k * a) b
  match hit q, hit (q + 1) with
  | false, false => none
  | true, false => some q
  | false, true => some (q + 1)
  | true, true =>
    let twice := 2 * (n % d)
    if twice < d then some q else if d < twice then some (q + 1)
    else if q % 2 = 0 then some q else some (q + 1)

def search (i : Interval) (num den : Nat) (lead : Int) : Nat → Nat → Decimal
  | 0, _ => ⟨0, 0⟩
  | left + 1, n =>
    let power := lead - n + 1
    match onGrid i num den power with
    | some k => ⟨k, power⟩
    | none => search i num den lead left (n + 1)

def shortest (x : Binary64) : Decimal :=
  let (num, den) := x.ratio
  search (intervalOf x) num den (leadingPower num den) 17 1

end Decimal
end Stencil

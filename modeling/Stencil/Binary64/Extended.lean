import Stencil.Binary64

/-!
Binary64 numbers with the two infinities and the value that is not a number, for arithmetic that may
leave the finite numbers.
-/

namespace Stencil

inductive Extended
  | finite (x : Binary64)
  | infinite (negative : Bool)
  | notANumber
deriving DecidableEq, Repr

namespace Extended

def isNegative : Extended → Bool
  | .finite x => x.negative
  | .infinite negative => negative
  | .notANumber => false

def isZero : Extended → Bool
  | .finite x => x.isZero
  | _ => false

def zero (negative : Bool) : Extended := .finite (.zero negative)

def ofRounded (negative : Bool) : Option Binary64 → Extended
  | some x => .finite x
  | none => .infinite negative

def ofInt (i : Int) : Extended := ofRounded (i < 0) (Binary64.ofInt i)

def neg : Extended → Extended
  | .finite x => .finite x.neg
  | .infinite negative => .infinite !negative
  | .notANumber => .notANumber

def add : Extended → Extended → Extended
  | .finite x, .finite y => ofRounded x.negative (x.add y)
  | .infinite a, .infinite b => if a = b then .infinite a else .notANumber
  | .infinite a, .finite _ => .infinite a
  | .finite _, .infinite b => .infinite b
  | _, _ => .notANumber

def sub (x y : Extended) : Extended := x.add y.neg

def mul (x y : Extended) : Extended :=
  let negative := x.isNegative != y.isNegative
  match x, y with
  | .finite x, .finite y => ofRounded negative (x.mul y)
  | .notANumber, _ | _, .notANumber => .notANumber
  | x, y => if x.isZero || y.isZero then .notANumber else .infinite negative

def div (x y : Extended) : Extended :=
  let negative := x.isNegative != y.isNegative
  match x, y with
  | .finite x, .finite y =>
    if y.isZero then if x.isZero then .notANumber else .infinite negative
    else ofRounded negative (x.div y)
  | .infinite _, .finite _ => .infinite negative
  | .finite _, .infinite _ => zero negative
  | _, _ => .notANumber

def rem (x y : Extended) : Extended :=
  match x, y with
  | .finite x, .finite y =>
    if y.isZero then .notANumber
    else
      let (a, b) := x.ratio
      let (c, d) := y.ratio
      ofRounded x.negative (Binary64.ofRatio x.negative (a * d % (c * b)) (b * d))
  | .finite x, .infinite _ => .finite x
  | _, _ => .notANumber

def truncate : Extended → Extended
  | .finite x =>
    let (a, b) := x.ratio
    ofRounded x.negative (Binary64.ofRatio x.negative (a / b) 1)
  | x => x

def divFloor (x y : Extended) : Extended :=
  let q := (x.div y).truncate
  let r := x.rem y
  if r.isNegative && !r.isZero then
    if y.isNegative then q.add (ofInt 1) else q.sub (ofInt 1)
  else q

/-- A power with a whole exponent, computed exactly and rounded once. -/
def powInt (x : Extended) (n : Int) : Extended :=
  let negative := x.isNegative && n % 2 = 1
  match x with
  | .finite x =>
    let (a, b) := x.ratio
    let k := n.natAbs
    if 0 ≤ n then ofRounded negative (Binary64.ofRatio negative (Nat.pow a k) (Nat.pow b k))
    else if a = 0 then .infinite negative
    else ofRounded negative (Binary64.ofRatio negative (Nat.pow b k) (Nat.pow a k))
  | .infinite _ => if n = 0 then ofInt 1 else if 0 < n then .infinite negative else zero negative
  | .notANumber => if n = 0 then ofInt 1 else .notANumber

def equals : Extended → Extended → Bool
  | .finite x, .finite y => x.compare y == .eq
  | .infinite a, .infinite b => a == b
  | _, _ => false

def rank : Extended → Int
  | .infinite true => -1
  | .finite _ => 0
  | .infinite false => 1
  | .notANumber => 2

def compare (x y : Extended) : Ordering :=
  match x, y with
  | .finite a, .finite b => a.compare b
  | x, y => Ord.compare x.rank y.rank

def toInt? : Extended → Option Int
  | .finite x => x.toInt?
  | _ => none

end Extended
end Stencil

import Stencil.Json.Error

/-!
Number literals. Digits are gathered into a whole number of at most 64 bits and a power of ten;
digits past that are dropped. A literal without point and exponent that fits is a whole number,
every other one is the gathered number scaled by the power of ten in binary64 arithmetic, which
rounds at each step.
-/

namespace Stencil.Json

/-- A refusal at the text `rest`; `ahead` bytes of it are counted as read. -/
structure Failure where
  cause : Cause
  rest : List Char
  ahead : Nat
deriving DecidableEq, Repr

abbrev Reader := StateT (List Char) (Except Failure)

namespace Reader

def fail {α : Type} (cause : Cause) : Reader α := fun s => .error ⟨cause, s, 0⟩

def failAtNext {α : Type} (cause : Cause) : Reader α := fun s => .error ⟨cause, s, 1⟩

def next? : Reader (Option Char) := fun s => .ok (s.head?, s)

def advance : Reader Unit := fun s => .ok ((), s.tail)

def takeDigits : Reader (List Char) := fun s =>
  .ok (s.takeWhile Char.isDigit, s.dropWhile Char.isDigit)

end Reader

namespace Literal

def greatestWord : Nat := twoTo 64 - 1

def digit (c : Char) : Nat := c.toNat - '0'.toNat

/-- Appends digits while the number fits a word; the second part counts the digits left over. -/
def gather : Nat → List Char → Nat × Nat
  | acc, [] => (acc, 0)
  | acc, c :: rest =>
    if acc * 10 + digit c ≤ greatestWord then gather (acc * 10 + digit c) rest
    else (acc, rest.length + 1)

def powerOfTen (k : Nat) : Binary64 := (Binary64.ofNat (tenTo k)).getD (.zero false)

/-- Multiplies or divides by a power of ten, by steps of at most 308 when dividing. A word is zero
after four such steps. -/
def scale : Nat → Binary64 → Int → Option Binary64
  | 0, _, _ => some (.zero false)
  | n + 1, x, power =>
    if power.natAbs ≤ 308 then
      if 0 ≤ power then x.mul (powerOfTen power.natAbs) else x.div (powerOfTen power.natAbs)
    else if x.isZero then some x
    else if 0 ≤ power then none
    else (x.div (powerOfTen 308)).bind fun y => scale n y (power + 308)

def float? (negative : Bool) (word : Nat) (power : Int) : Option Number :=
  ((Binary64.ofNat word).bind fun x => scale 4 x power).map fun x =>
    .float (if negative then x.neg else x)

def whole (negative : Bool) (word : Nat) : Number :=
  if !negative then .int word
  else if word = 0 then .float (.zero true)
  else if word ≤ twoTo 63 then .int (-(word : Int))
  else .float (((Binary64.ofNat word).getD (.zero false)).neg)

open Reader

def finish (negative : Bool) (word : Nat) (power : Int) : Reader Number :=
  match float? negative word power with
  | some n => pure n
  | none => fail .numberOutOfRange

/-- The digits of an exponent up to and with the first that takes it past 31 bits; whether one
did. -/
def gatherExponent : Nat → List Char → List Char → Nat × Bool × List Char
  | acc, [], after => (acc, false, after)
  | acc, c :: rest, after =>
    if acc * 10 + digit c < twoTo 31 then gatherExponent (acc * 10 + digit c) rest after
    else (acc, true, rest ++ after)

def readPower (negative : Bool) (word : Nat) (power : Int) (down : Bool) : Reader Number := do
  match ← next? with
  | none => fail .endInValue
  | some c =>
    if c.isDigit then
      let digits ← takeDigits
      let (exponent, tooLarge, after) := gatherExponent 0 digits (← get)
      if tooLarge then
        if word != 0 && !down then
          set after
          fail .numberOutOfRange
        else
          pure (.float (.zero negative))
      else finish negative word (if down then power - exponent else power + exponent)
    else failAtNext .invalidNumber

def readExponent (negative : Bool) (word : Nat) (power : Int) : Reader Number := do
  let sign ← next?
  let down := sign == some '-'
  if down || sign == some '+' then advance
  readPower negative word power down

def isExponentMark (c : Option Char) : Bool := c == some 'e' || c == some 'E'

def readFraction (negative : Bool) (word : Nat) (power : Int) : Reader Number := do
  let digits ← takeDigits
  if digits.isEmpty then
    match ← next? with
    | some _ => failAtNext .invalidNumber
    | none => failAtNext .endInValue
  else
    let (word, left) := gather word digits
    let power := power - ((digits.length - left : Nat) : Int)
    if isExponentMark (← next?) then
      advance
      readExponent negative word power
    else finish negative word power

def read (negative : Bool) : Reader Number := do
  match ← next? with
  | none => fail .endInValue
  | some c =>
    if !c.isDigit then failAtNext .invalidNumber
    else
      let digits ← (if c == '0' then do advance; pure ['0'] else takeDigits)
      let after ← next?
      if c == '0' && after.any Char.isDigit then failAtNext .invalidNumber
      else
        let (word, left) := gather 0 digits
        if after == some '.' then
          advance
          readFraction negative word left
        else if isExponentMark after then
          advance
          readExponent negative word left
        else if left = 0 then pure (whole negative word)
        else finish negative word left

end Literal
end Stencil.Json

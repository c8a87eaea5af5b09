import Stencil.Decimal.Shortest

/-!
How a decimal is laid out as text: positional, with at least one digit on each side of the point,
or scientific, with the point after the first digit.
-/

namespace Stencil.Decimal

/-- The powers of the leading digit that are written positionally, and whether the exponent of the
others shows a plus sign. -/
structure Layout where
  positional : Int → Bool
  plus : Bool

/-- Positional from `0.00001` up to sixteen digits before the point; `1e+16` and `1e-6` beyond. -/
def Layout.data : Layout := ⟨fun e => -5 ≤ e && e ≤ 15, true⟩

def Layout.plain : Layout := ⟨fun _ => true, false⟩

/-- Positional from `0.0001` up to sixteen digits before the point; `1e16` and `1e-5` beyond. -/
def Layout.inspected : Layout := ⟨fun e => -4 ≤ e && e ≤ 15, false⟩

def zeros (n : Nat) : String := String.ofList (List.replicate n '0')

def pointText (digits : String) (lead : Int) : String :=
  if lead < 0 then "0." ++ zeros (-lead - 1).toNat ++ digits
  else
    let whole := lead.toNat + 1
    if digits.length ≤ whole then digits ++ zeros (whole - digits.length) ++ ".0"
    else (digits.take whole).toString ++ "." ++ (digits.drop whole).toString

def exponentText (digits : String) (lead : Int) (plus : Bool) : String :=
  let mantissa :=
    if digits.length ≤ 1 then digits
    else (digits.take 1).toString ++ "." ++ (digits.drop 1).toString
  let sign := if lead < 0 then "-" else if plus then "+" else ""
  mantissa ++ "e" ++ sign ++ toString lead.natAbs

def strip : Nat → Nat → Int → Nat × Int
  | 0, d, p => (d, p)
  | n + 1, d, p => if d != 0 && d % 10 = 0 then strip n (d / 10) (p + 1) else (d, p)

/-- The shortest text that reads back as `x`, zero as `0.0`. -/
def Layout.write (layout : Layout) (x : Binary64) : String :=
  let sign := if x.negative then "-" else ""
  if x.isZero then sign ++ "0.0"
  else
    let d := shortest x
    let (digits, power) := strip 17 d.digits d.power
    let text := toString digits
    let lead := power + (text.length : Int) - 1
    sign ++ if layout.positional lead then pointText text lead
      else exponentText text lead layout.plus

end Stencil.Decimal

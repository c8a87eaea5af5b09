import Stencil.Binary64
import Stencil.Entries

/-!
The data that templates are rendered with: the values of a document, with objects that keep the
order of their keys.
-/

namespace Stencil

inductive Number
  | int (i : Int)
  | float (x : Binary64)
deriving DecidableEq, Repr

inductive Value
  | null
  | bool (b : Bool)
  | number (n : Number)
  | string (s : String)
  | array (items : List Value)
  | object (entries : List (String × Value))
deriving Repr, Inhabited

abbrev Context := Entries Value

def Number.isZero : Number → Bool
  | .int i => i == 0
  | .float x => x.isZero

namespace Value

/-- Whether a value counts as true where a printed result or a branch depends on it. Null, false,
zero of either sign and the empty string do not; every array and object does. -/
def isTruthy : Value → Bool
  | .null => false
  | .bool b => b
  | .number n => !n.isZero
  | .string s => s != ""
  | .array _ => true
  | .object _ => true

def ofNat (n : Nat) : Value := .number (.int n)

def field? : Value → String → Option Value
  | .object es, key => Entries.get? es key
  | _, _ => none

def item? : Value → Nat → Option Value
  | .array items, i => items[i]?
  | _, _ => none

end Value
end Stencil

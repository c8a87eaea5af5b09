import Stencil.Binary64.Extended
import Stencil.Json.Writer

/-!
The values that templates compute with. Maps are kept in the order of their keys, whatever order
they were built in; keys may be any values. Values of different kinds are ordered by kind.
-/

namespace Stencil.Markup

inductive Function
  | helper (name : String)
  | range
deriving DecidableEq, Repr

inductive Datum
  /-- A quiet one comes from a choice that was not taken, and is never a failure. -/
  | undefined (quiet : Bool)
  | none
  | bool (b : Bool)
  | int (i : Int)
  | float (x : Extended)
  /-- A safe text is not escaped again. -/
  | string (safe : Bool) (s : String)
  /-- Ranges, and lists that were computed from others, are of a kind of their own. -/
  | list (computed : Bool) (items : List Datum)
  /-- A map with a label is printed by it. -/
  | map (label : Option String) (entries : List (Datum × Datum))
  | function (f : Function)
deriving Repr, Inhabited

inductive Numeric
  | int (i : Int)
  | float (x : Extended)

namespace Numeric

def toFloat : Numeric → Extended
  | .int i => .ofInt i
  | .float x => x

def compareMixed (i : Int) : Extended → Ordering
  | .finite x =>
    let (a, b) := x.signedRatio
    Ord.compare (i * b) a
  | x => Ord.compare 0 x.rank

def compare : Numeric → Numeric → Ordering
  | .int i, .int j => Ord.compare i j
  | .float x, .float y => x.compare y
  | .int i, .float y => compareMixed i y
  | .float x, .int j => (compareMixed j x).swap

def equals : Numeric → Numeric → Bool
  | .int i, .int j => i == j
  | .float x, .float y => x.equals y
  | .int i, .float y => y.toInt? == some i
  | .float x, .int j => x.toInt? == some j

end Numeric

namespace Datum

def text (s : String) : Datum := .string false s

def missing : Datum := .undefined false

def isUndefined : Datum → Bool
  | .undefined _ => true
  | _ => false

def isMissing : Datum → Bool
  | .undefined quiet => !quiet
  | _ => false

def isSafe : Datum → Bool
  | .string safe _ => safe
  | _ => false

def kind : Datum → Nat
  | .undefined _ => 0
  | .none => 1
  | .bool _ => 2
  | .int _ | .float _ => 3
  | .string _ _ => 4
  | .list false _ => 5
  | .map _ _ => 6
  | .list true _ => 7
  | .function _ => 8

/-- Truth values count as zero and one. -/
def numeric? : Datum → Option Numeric
  | .bool b => some (.int (if b then 1 else 0))
  | .int i => some (.int i)
  | .float x => some (.float x)
  | _ => Option.none

def string? : Datum → Option String
  | .string _ s => some s
  | _ => Option.none

def isTruthy : Datum → Bool
  | .undefined _ | .none => false
  | .bool b => b
  | .int i => i != 0
  | .float x => !x.isZero
  | .string _ s => s != ""
  | .list _ items => !items.isEmpty
  | .map _ entries => !entries.isEmpty
  | .function _ => true

mutual

/-- The order of values: by kind, and within a kind as numbers, as texts, or part by part. -/
def compare : Datum → Datum → Ordering
  | .string _ s, .string _ t => Ord.compare s t
  | .list c as, .list d bs => (Ord.compare c d).then (compareAll as bs)
  | .map _ as, .map _ bs => compareEntries as bs
  | a, b =>
    (Ord.compare a.kind b.kind).then
      (match a.numeric?, b.numeric? with
        | some x, some y => x.compare y
        | _, _ => .eq)

def compareAll : List Datum → List Datum → Ordering
  | [], [] => .eq
  | [], _ => .lt
  | _, [] => .gt
  | a :: as, b :: bs => (compare a b).then (compareAll as bs)

def compareEntries : List (Datum × Datum) → List (Datum × Datum) → Ordering
  | [], [] => .eq
  | [], _ => .lt
  | _, [] => .gt
  | (k, a) :: as, (l, b) :: bs =>
    ((compare k l).then (compare a b)).then (compareEntries as bs)

end

mutual

/-- Numbers are compared with truth values, and lists of both kinds element by element; apart from
that, values of different kinds differ. -/
def equals : Datum → Datum → Bool
  | .undefined _, .undefined _ => true
  | .none, .none => true
  | .string _ s, .string _ t => s == t
  | .list _ as, .list _ bs => equalsAll as bs
  | .map _ as, .map _ bs => equalsEntries as bs
  | .function f, .function g => f == g
  | a, b =>
    match a.numeric?, b.numeric? with
    | some x, some y => x.equals y
    | _, _ => false

def equalsAll : List Datum → List Datum → Bool
  | [], [] => true
  | a :: as, b :: bs => equals a b && equalsAll as bs
  | _, _ => false

def equalsEntries : List (Datum × Datum) → List (Datum × Datum) → Bool
  | [], [] => true
  | (k, a) :: as, (l, b) :: bs => compare k l == .eq && equals a b && equalsEntries as bs
  | _, _ => false

end

def insertEntry (key v : Datum) : List (Datum × Datum) → List (Datum × Datum)
  | [] => [(key, v)]
  | (k, w) :: rest =>
    match compare key k with
    | .lt => (key, v) :: (k, w) :: rest
    | .eq => (k, v) :: rest
    | .gt => (k, w) :: insertEntry key v rest

def ofEntries (entries : List (Datum × Datum)) : Datum :=
  .map Option.none (entries.foldl (fun es e => insertEntry e.1 e.2 es) [])

def entry? (key : Datum) : List (Datum × Datum) → Option Datum
  | [] => Option.none
  | (k, v) :: rest => if compare key k == .eq then some v else entry? key rest

mutual

def ofValue : Value → Datum
  | .null => .none
  | .bool b => .bool b
  | .number (.int i) => .int i
  | .number (.float x) => .float (.finite x)
  | .string s => text s
  | .array items => .list false (ofValues items)
  | .object entries => .map Option.none (insertValues [] entries)

def ofValues : List Value → List Datum
  | [] => []
  | v :: rest => ofValue v :: ofValues rest

def insertValues (acc : List (Datum × Datum)) : List (String × Value) → List (Datum × Datum)
  | [] => acc
  | (key, v) :: rest => insertValues (insertEntry (text key) (ofValue v) acc) rest

end

def fitsData (i : Int) : Bool := fitsSigned 64 i || fitsUnsigned 64 i

def keyText? : Datum → Option String
  | .string _ s => some s
  | .bool b => some (if b then "true" else "false")
  | .int i => some (toString i)
  | .float (.finite x) => some (Number.float x).text
  | _ => Option.none

mutual

/-- A value as data. Keys that are neither texts, numbers nor truth values have no form there, nor
have whole numbers that are too large. -/
def toValue? : Datum → Option Value
  | .undefined _ | .none => some .null
  | .bool b => some (.bool b)
  | .int i => if fitsData i then some (.number (.int i)) else Option.none
  | .float (.finite x) => some (.number (.float x))
  | .float _ => some .null
  | .string _ s => some (.string s)
  | .list _ items => (toValues? items).map .array
  | .map _ entries => (toEntries? [] entries).map .object
  | .function _ => Option.none

def toValues? : List Datum → Option (List Value)
  | [] => some []
  | d :: rest => do
    let v ← toValue? d
    return v :: (← toValues? rest)

def toEntries? (acc : Entries Value) : List (Datum × Datum) → Option (Entries Value)
  | [] => some acc
  | (key, d) :: rest => do
    let k ← keyText? key
    let v ← toValue? d
    toEntries? (acc.insert k v) rest

end

end Datum
end Stencil.Markup

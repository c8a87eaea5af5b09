import Stencil.Markup.Print
import Stencil.Markup.Syntax

/-!
Operators on values. Whole numbers have 128 bits and a sign; a result past them is a failure. An
operation with a float on either side computes with floats.
-/

namespace Stencil.Markup

namespace Operator

abbrev Result := Except Fault Datum

def invalid {α : Type} : Except Fault α := .error .invalidOperation

def whole (i : Int) : Result :=
  if fitsSigned 128 i then .ok (.int i) else invalid

def isOperand : Numeric → Bool
  | .int i => i < twoTo 127
  | .float _ => true

/-- Arithmetic on two numbers, of which both are whole or both are computed with as floats. -/
def arithmetic (ints : Int → Int → Result) (floats : Extended → Extended → Result) (a b : Datum) :
    Result :=
  match a.numeric?, b.numeric? with
  | some x, some y =>
    if isOperand x && isOperand y then
      match x, y with
      | .int i, .int j => ints i j
      | x, y => floats x.toFloat y.toFloat
    else invalid
  | _, _ => invalid

def floats (f : Extended → Extended → Extended) (x y : Extended) : Result := .ok (.float (f x y))

def add : Datum → Datum → Result
  | .list _ as, .list _ bs => .ok (.list true (as ++ bs))
  | .string _ s, .string _ t => .ok (.text (s ++ t))
  | a, b => arithmetic (fun i j => whole (i + j)) (floats Extended.add) a b

def subtract : Datum → Datum → Result :=
  arithmetic (fun i j => whole (i - j)) (floats Extended.sub)

def times? (d : Datum) : Option Nat :=
  match d.numeric? with
  | some (.int i) => if fitsUnsigned 64 i then some i.toNat else none
  | some (.float x) => x.toInt?.bind fun i => if fitsUnsigned 64 i then some i.toNat else none
  | none => none

def repeated (d : Datum) (f : Nat → Datum) : Result :=
  match times? d with
  | some n => .ok (f n)
  | none => invalid

def multiply (a b : Datum) : Result :=
  let text (s : String) (n : Nat) : Datum := .text (String.join (List.replicate n s))
  let list (items : List Datum) (n : Nat) : Datum := .list true (List.replicate n items).flatten
  match a, b with
  | .string _ _, .string _ _ => invalid
  | .string _ s, d => repeated d (text s)
  | d, .string _ s => repeated d (text s)
  | .list _ items, d => repeated d (list items)
  | d, .list _ items => repeated d (list items)
  | a, b => arithmetic (fun i j => whole (i * j)) (floats Extended.mul) a b

def divide : Datum → Datum → Result :=
  arithmetic (fun i j => .ok (.float ((Extended.ofInt i).div (.ofInt j)))) (floats Extended.div)

def floorDivide : Datum → Datum → Result :=
  arithmetic (fun i j => if j = 0 then invalid else whole (i / j)) (floats Extended.divFloor)

/-- The remainder of whole numbers is never negative. -/
def remainder : Datum → Datum → Result :=
  arithmetic (fun i j => if j = 0 then invalid else whole (i % j)) (floats Extended.rem)

def powerWhole (i j : Int) : Result :=
  if !fitsUnsigned 32 j then invalid
  else if i.natAbs ≤ 1 then whole (if j = 0 then 1 else if i = -1 && j % 2 = 0 then 1 else i)
  else if 127 < j then invalid
  else whole (Int.pow i j.toNat)

def exponentLimit : Nat := 4096

def power : Datum → Datum → Result :=
  arithmetic powerWhole fun x y =>
    match y.toInt? with
    | some n => if n.natAbs ≤ exponentLimit then .ok (.float (x.powInt n)) else invalid
    | none => invalid

def negate : Datum → Result
  | .int i => whole (-i)
  | .float x => .ok (.float x.neg)
  | _ => invalid

def isInfix (part : List Char) : List Char → Bool
  | [] => part.isEmpty
  | c :: rest => part.isPrefixOf (c :: rest) || isInfix part rest

def contains (container d : Datum) : Except Fault Bool :=
  match container with
  | .undefined _ => .ok false
  | .string _ s => .ok (isInfix d.print.toList s.toList)
  | .list _ items => .ok (items.any fun item => item.equals d)
  | .map _ entries => .ok (Datum.entry? d entries).isSome
  | .function _ => .ok false
  | _ => invalid

def binary (op : Binary) (a b : Datum) : Result :=
  match op with
  | .add => add a b
  | .subtract => subtract a b
  | .multiply => multiply a b
  | .divide => divide a b
  | .floorDivide => floorDivide a b
  | .remainder => remainder a b
  | .power => power a b
  | .concat => .ok (.text (a.print ++ b.print))

def compare (c : Comparison) (a b : Datum) : Except Fault Bool :=
  match c with
  | .equal => .ok (a.equals b)
  | .notEqual => .ok !(a.equals b)
  | .less => .ok (a.compare b == .lt)
  | .lessEqual => .ok (a.compare b != .gt)
  | .greater => .ok (a.compare b == .gt)
  | .greaterEqual => .ok (a.compare b != .lt)
  | .contained => contains b a
  | .notContained => (contains b a).map (!·)

def int? (d : Datum) : Option Int :=
  match d.numeric? with
  | some (.int i) => some i
  | some (.float x) => x.toInt?
  | none => none

/-- A place in a sequence of a length; a negative one counts from the end. -/
def place? (length : Nat) (d : Datum) : Option Nat :=
  match int? d with
  | some i => if i < 0 then if -i ≤ length then some (length + i).toNat else none else some i.toNat
  | none => none

def item? (d key : Datum) : Option Datum :=
  match d with
  | .list _ items => (place? items.length key).bind (items[·]?)
  | .string _ s => (place? s.length key).bind fun i =>
      (s.toList[i]?).map fun c => .text (String.singleton c)
  | .map _ entries => Datum.entry? key entries
  | _ => none

def attribute? (d : Datum) (name : String) : Option Datum :=
  match d with
  | .map _ entries => Datum.entry? (.text name) entries
  | _ => none

def everyNth {α : Type} (step : Nat) : Nat → List α → List α
  | _, [] => []
  | 0, a :: rest => a :: everyNth step (step - 1) rest
  | n + 1, _ :: rest => everyNth step n rest

def bound (length : Nat) (i : Int) : Nat :=
  min length (if i < 0 then (length + i).toNat else i.toNat)

def forward {α : Type} (items : List α) (start stop : Option Int) (step : Nat) : List α :=
  let low := (start.map (bound items.length)).getD 0
  let high := (stop.map (bound items.length)).getD items.length
  everyNth step 0 ((items.take high).drop low)

/-- A part of a list from right to left, the element at `start` first and that at `stop` no more. -/
def backward {α : Type} (items : List α) (start stop : Option Int) (step : Nat) : List α :=
  let behind (i : Int) : Nat := bound items.length (if i = -1 then items.length else i + 1)
  let high := (start.map behind).getD items.length
  let low := (stop.map behind).getD 0
  everyNth step 0 ((items.take high).drop low).reverse

def sliced {α : Type} (items : List α) (start stop : Option Int) (step : Int) : List α :=
  if 0 < step then forward items start stop step.toNat else backward items start stop (-step).toNat

def sliceBound (d : Datum) : Except Fault (Option Int) :=
  match d with
  | .none => .ok none
  | d => match int? d with
    | some i => .ok (some i)
    | none => invalid

/-- A part of a sequence. With a negative step it goes from right to left. -/
def slice (d start stop step : Datum) : Result := do
  let start ← sliceBound start
  let stop ← sliceBound stop
  let step := (← sliceBound step).getD 1
  if step = 0 then invalid
  else
    let cut {α : Type} (items : List α) : List α := sliced items start stop step
    match d with
    | .undefined _ | .none => .ok (.list false [])
    | .string _ s => .ok (.text (String.ofList (cut s.toList)))
    | .list _ items => .ok (.list true (cut items))
    | _ => invalid

end Operator
end Stencil.Markup

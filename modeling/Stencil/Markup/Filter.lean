import Stencil.Markup.Operator
import Stencil.Text.Case

/-!
Filters, tests and the one function that templates have without helpers. Arguments that have a name
arrive together as a map behind the others.
-/

namespace Stencil.Markup

structure Rules where
  strict : Bool := false
  escaping : Escaping := .none
  initial : Escaping := .none

namespace Rules

def present (r : Rules) (d : Datum) : Except Fault Unit :=
  if r.strict && d.isMissing then .error .undefinedValue else .ok ()

def truth (r : Rules) (d : Datum) : Except Fault Bool := do
  r.present d
  return d.isTruthy

/-- What a value consists of: a map of its keys, a text of its characters; nothing is empty. -/
def elements : Datum → Except Fault (List Datum)
  | .undefined _ | .none => .ok []
  | .list _ items => .ok items
  | .map _ entries => .ok (entries.map Prod.fst)
  | .string _ s => .ok (s.toList.map fun c => .text (String.singleton c))
  | _ => .error .invalidOperation

def items (r : Rules) (d : Datum) : Except Fault (List Datum) := do
  r.present d
  elements d

def text (r : Rules) (d : Datum) : Except Fault String := do
  r.present d
  return d.print

def captured (r : Rules) (s : String) : Datum := .string (r.escaping != .none) s

def compare (r : Rules) (c : Comparison) (a b : Datum) : Except Fault Bool := do
  r.present a
  r.present b
  Operator.compare c a b

end Rules

namespace Filter

def limited (n : Nat) (args : List Datum) : Except Fault Unit :=
  if n < args.length then .error .tooManyArguments else .ok ()

/-- The text of an escaped value. Where nothing is escaped it is escaped as at the start, or for
HTML. -/
def escape (r : Rules) (d : Datum) : Except Fault Datum :=
  if d.isSafe then .ok d
  else
    let mode := if r.escaping != .none then r.escaping
      else if r.initial != .none then r.initial
      else .html
    return .string true (← d.escaped mode)

def length (d : Datum) : Except Fault Datum :=
  match d with
  | .string _ s => .ok (.int s.length)
  | .list _ items => .ok (.int items.length)
  | .map _ entries => .ok (.int entries.length)
  | _ => .error .invalidOperation

def rewritten (r : Rules) (form : String → String) (d : Datum) : Except Fault Datum :=
  return .string d.isSafe (form (← r.text d))

/-- An argument that may be left out; undefined and none stand for one that is. -/
def given? (d : Option Datum) : Option Datum :=
  match d with
  | none | some .none | some (.undefined _) => none
  | some d => some d

/-- Stands in for an undefined value, and on demand for every value that does not count as true. -/
def default (r : Rules) (d : Datum) (args : List Datum) : Except Fault Datum := do
  let other := args.headD (.text "")
  if d.isUndefined then return other
  match args[1]? with
  | none => return d
  | some lax => return if (← r.truth lax) && !d.isTruthy then other else d

def safePart (d : Datum) : String := if d.isSafe then d.print else escapeHtml d.print

/-- Elements as one text. Where output is escaped and one of the parts is safe, the text is safe and
the other parts are escaped. -/
def join (r : Rules) (d : Datum) (args : List Datum) : Except Fault Datum := do
  let separator := (given? args.head?).getD (.text "")
  let parts ← Rules.elements d
  if r.escaping != .none && (separator.isSafe || parts.any Datum.isSafe) then
    return .string true ((safePart separator).intercalate (parts.map safePart))
  else return .text (separator.print.intercalate (parts.map Datum.print))

def apply (r : Rules) (name : String) (d : Datum) (args : List Datum) : Except Fault Datum :=
  match name with
  | "safe" => do
    limited 0 args
    return .string true (← r.text d)
  | "e" | "escape" => do
    limited 0 args
    escape r d
  | "upper" => do
    limited 0 args
    rewritten r Text.upper d
  | "lower" => do
    limited 0 args
    rewritten r Text.lower d
  | "length" | "count" => do
    limited 0 args
    length d
  | "default" | "d" => do
    limited 2 args
    default r d args
  | "join" => do
    limited 1 args
    join r d args
  | _ => .error .unknownFilter

def property? : String → Option (Datum → Bool)
  | "defined" => some fun d => !d.isUndefined
  | "undefined" => some Datum.isUndefined
  | "none" => some (· matches .none)
  | "true" => some (· matches .bool true)
  | "false" => some (· matches .bool false)
  | "boolean" => some (· matches .bool _)
  | "number" => some (· matches .int _ | .float _)
  | "integer" | "int" => some (· matches .int _)
  | "float" => some (· matches .float _)
  | "string" => some (· matches .string _ _)
  | "sequence" => some (· matches .list false _)
  | "mapping" => some (· matches .map _ _)
  | "iterable" => some fun d => (Rules.elements d).isOk
  | "odd" => some fun d => (Operator.int? d).any (· % 2 != 0)
  | "even" => some fun d => (Operator.int? d).any (· % 2 == 0)
  | "safe" | "escaped" => some Datum.isSafe
  | _ => none

def relation? : String → Option Comparison
  | "eq" | "equalto" => some .equal
  | "ne" => some .notEqual
  | "lt" | "lessthan" => some .less
  | "le" => some .lessEqual
  | "gt" | "greaterthan" => some .greater
  | "ge" => some .greaterEqual
  | "in" => some .contained
  | _ => none

def test (name : String) (d : Datum) (args : List Datum) : Except Fault Bool :=
  match property? name, relation? name, args with
  | some holds, _, args => do
    limited 0 args
    return holds d
  | none, some c, [other] => Operator.compare c d other
  | none, some _, [] => .error .missingArgument
  | none, some _, _ => .error .tooManyArguments
  | none, none, _ => .error .unknownTest

def rangeBound (d : Datum) : Except Fault Int :=
  match Operator.int? d with
  | some i => if fitsSigned 64 i then .ok i else .error .invalidOperation
  | none => .error .invalidOperation

def rangeLimit : Nat := 100000

def stepCount (start stop step : Int) : Nat :=
  if 0 < step then ((stop - start + step - 1) / step).toNat
  else ((start - stop - step - 1) / (-step)).toNat

/-- The whole numbers up to a bound, or between two, in steps that may go down. -/
def range (args : List Datum) : Except Fault Datum := do
  match args with
  | [] => throw .missingArgument
  | first :: rest =>
    let first ← rangeBound first
    let second ← (given? rest.head?).mapM rangeBound
    let step := (← (given? (rest[1]?)).mapM rangeBound).getD 1
    limited 2 rest
    let (start, stop) := match second with
      | some second => (first, second)
      | none => (0, first)
    if step = 0 then throw .invalidOperation
    let count := stepCount start stop step
    if rangeLimit < count then throw .invalidOperation
    return .list true ((List.range count).map fun (i : Nat) => .int (start + i * step))

end Filter
end Stencil.Markup

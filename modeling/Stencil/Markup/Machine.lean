import Stencil.Markup.Filter
import Stencil.Markup.Parser

/-!
The state of a render: scopes with the names in them, the blocks of the template, and what is done
with output. A failure ends a render.
-/

namespace Stencil.Markup

/-- A level of scope: what was assigned in it, the loop that it belongs to, and, at the bottom, the
context of the render. -/
structure Frame where
  locals : Entries Datum := []
  loop : Option Datum := none
  context : Datum := .missing
deriving Inhabited

/-- The bodies that a block has in a template and in those that it extends, and which of them is
being rendered. -/
structure BlockStack where
  bodies : List (List Statement)
  level : Nat := 0

def Frame.get? (f : Frame) (name : String) : Option Datum :=
  match f.locals.get? name with
  | some d => some d
  | none =>
    match name, f.loop with
    | "loop", some d => some d
    | name, _ => Operator.attribute? f.context name

def BlockStack.body (b : BlockStack) : List Statement := (b.bodies[b.level]?).getD []

structure Machine where
  /-- The innermost scope comes first. -/
  frames : List Frame
  included : Nat := 0
  blocks : Entries BlockStack := []
  current : Option String := none
  extended : List String := []
  escaping : Escaping := .none
  /-- The template to render when the present body is at its end. -/
  parent : Option Syntax := none
  /-- Whether output is dropped, as it is once a template extends another. -/
  silent : Bool := false

structure Setup extends Scene where
  settings : Settings

abbrev Engine := ReaderT Setup (StateT Machine (ExceptT Fault Rendering))

namespace Engine

def fail {α : Type} (f : Fault) : Engine α := throw f

def lift {α : Type} (r : Except Fault α) : Engine α :=
  match r with
  | .ok a => pure a
  | .error f => throw f

def request (name : String) (args : List (Option Value)) : Engine String :=
  fun _ m => ExceptT.mk (.call name args fun s => .done (.ok (s, m)))

def escapingFor (settings : Settings) (name : String) : Escaping :=
  match settings.autoescape with
  | some true => .html
  | some false => .none
  | none => .ofName name

def rules : Engine Rules := do
  let setup ← read
  return ⟨setup.settings.strict, (← get).escaping, escapingFor setup.settings setup.name⟩

def depthLimit : Nat := 500

def includeCost : Nat := 10

def depth (m : Machine) : Nat := m.frames.length + m.included

def push (f : Frame) : Engine Unit := do
  let m ← get
  if depthLimit < depth m then fail .invalidOperation
  set { m with frames := f :: m.frames }

def pop : Engine Unit := modify fun m => { m with frames := m.frames.drop 1 }

def isRegistered (name : String) : Engine Bool := do return (← read).functions.contains name

/-- The value of a name: of the innermost scope that has it, and else a function. -/
def lookup (name : String) : Engine (Option Datum) := do
  match (← get).frames.findSome? (Frame.get? · name) with
  | some d => return some d
  | none =>
    if ← isRegistered name then return some (.function (.helper name))
    else if name == "range" then return some (.function .range)
    else return none

def store (name : String) (d : Datum) : Engine Unit := modify fun m =>
  match m.frames with
  | f :: rest => { m with frames := { f with locals := f.locals.insert name d } :: rest }
  | [] => m

/-- The value of a part that may be missing. The parts of an undefined value are out of reach. -/
def part (whole : Datum) (found : Option Datum) : Engine Datum :=
  match found with
  | some d => pure d
  | none => if whole.isUndefined then fail .undefinedValue else pure .missing

def along : List String → Datum → Engine Datum
  | [], d => pure d
  | name :: rest, d => do along rest (← part d (Operator.attribute? d name))

mutual

/-- Assigns a value. A list of targets takes the elements of a list, or the keys of a map, if there
are as many. -/
def assign : Target → Datum → Engine Unit
  | .name s, d => store s d
  | .list targets, .list _ items => assignAll targets items
  | .list targets, .map _ entries => assignAll targets (entries.map Prod.fst)
  | .list _, _ => fail .cannotUnpack
  | .attr name path, _ => do
    let _ ← along path ((← lookup name).getD .missing)
    fail .invalidOperation

def assignAll : List Target → List Datum → Engine Unit
  | [], [] => pure ()
  | t :: ts, d :: ds => do
    assign t d
    assignAll ts ds
  | _, _ => fail .cannotUnpack

end

def printed (s : String) : Engine String := do return if (← get).silent then "" else s

def output (d : Datum) : Engine String := do
  let r ← rules
  lift (r.present d)
  printed (← lift (d.escaped r.escaping))

def callFunction (f : Function) (args : List Datum) : Engine Datum :=
  match f with
  | .helper name => do return .text (← request name (args.map Datum.toValue?))
  | .range => lift (Filter.range args)

def callDatum (d : Datum) (args : List Datum) : Engine Datum :=
  match d with
  | .function f => callFunction f args
  | _ => fail .invalidOperation

end Engine
end Stencil.Markup

import Stencil.Markup.Machine

/-!
Evaluating expressions. An expression may render blocks; `again` renders the bodies of these.
-/

namespace Stencil.Markup.Engine

def inScope (again : List Statement → Engine String) (body : List Statement) :
    Engine String := do
  push {}
  let text ← again body
  pop
  return text

def renderBlock (again : List Statement → Engine String) (name : String) : Engine String := do
  let m ← get
  match m.blocks.get? name with
  | none => fail .unknownBlock
  | some b => do
    set { m with current := some name }
    let text ← inScope again b.body
    modify fun after => { after with current := m.current }
    return text

def blockInPlace (again : List Statement → Engine String) (name : String) : Engine String := do
  let m ← get
  if m.parent.isSome || m.silent then return "" else renderBlock again name

/-- The present block as the extended template has it. A failure in there counts as one of this
block. -/
def renderSuper (again : List Statement → Engine String) : Engine String := do
  let m ← get
  match m.current with
  | none => fail .invalidOperation
  | some name =>
    match m.blocks.get? name with
    | none => fail .invalidOperation
    | some b =>
      if b.bodies.length ≤ b.level + 1 then fail .invalidOperation
      let upper := { b with level := b.level + 1 }
      set { m with blocks := m.blocks.insert name upper }
      push {}
      let text ← tryCatch (again upper.body) fun _ => fail .badBlock
      pop
      modify fun after => { after with blocks := after.blocks.insert name b }
      return text

def capturing (c : Engine String) : Engine Datum := do
  let silent := (← get).silent
  modify fun m => { m with silent := false }
  let text ← c
  modify fun m => { m with silent := silent }
  return (← rules).captured text

def literal : Literal → Datum
  | .none => .none
  | .bool b => .bool b
  | .int i => .int i
  | .float digits power => .float (.ofRounded false (Binary64.ofDecimal false digits power))
  | .string s => .text s

/-- The arguments of a call; those with a name arrive as one map. -/
def arguments : List Datum × List (Datum × Datum) → List Datum
  | (plain, named) => if named.isEmpty then plain else plain ++ [.ofEntries named]

section

variable (again : List Statement → Engine String)

mutual

def eval : Expr → Engine Datum
  | .lit l => pure (literal l)
  | .var name => do return (← lookup name).getD .missing
  | .list items => do return .list false (← evalAll items)
  | .map entries => do return .ofEntries (← evalEntries entries)
  | .attr e name => do
    let d ← eval e
    part d (Operator.attribute? d name)
  | .item e key => do
    let d ← eval e
    let k ← eval key
    part d (Operator.item? d k)
  | .slice e start stop step => do
    let d ← eval e
    let start ← evalOption start
    let stop ← evalOption stop
    let step ← evalOption step
    if (← rules).strict && d.isUndefined then fail .undefinedValue
    lift (Operator.slice d start stop step)
  | .unary .not e => do return .bool !(← lift ((← rules).truth (← eval e)))
  | .unary .negate e => do lift (Operator.negate (← eval e))
  | .binary op left right => do
    let a ← eval left
    let b ← eval right
    lift (Operator.binary op a b)
  | .compare first rest => do evalChain (← eval first) rest
  | .and left right => do
    let a ← eval left
    if ← lift ((← rules).truth a) then eval right else return a
  | .or left right => do
    let a ← eval left
    if ← lift ((← rules).truth a) then return a else eval right
  | .choose condition yes no => do
    if ← lift ((← rules).truth (← eval condition)) then eval yes
    else match no with
      | some e => eval e
      | none => return .undefined true
  | .filter name e args => do
    let d ← eval e
    let args := arguments (← evalParts args)
    lift (Filter.apply (← rules) name d args)
  | .test name e args => do
    let d ← eval e
    let args := arguments (← evalParts args)
    return .bool (← lift (Filter.test name d args))
  | .call f args =>
    match f with
    | .var "super" => do
      if !(arguments (← evalParts args)).isEmpty then fail .invalidOperation
      capturing (renderSuper again)
    | .var "loop" => do
      let args := arguments (← evalParts args)
      let inLoop := (← get).frames.any (·.loop.isSome)
      fail (if args.length = 1 && !inLoop then .unknownFunction else .invalidOperation)
    | .var name => do
      let args := arguments (← evalParts args)
      match ← lookup name with
      | some d => callDatum d args
      | none => fail .unknownFunction
    | .attr (.var "self") name => capturing (blockInPlace again name)
    | .attr e name => do
      let d ← eval e
      let args := arguments (← evalParts args)
      match d, Operator.attribute? d name with
      | .map none _, some m => callDatum m args
      | _, _ => fail .unknownMethod
    | f => do
      let d ← eval f
      let args := arguments (← evalParts args)
      callDatum d args

/-- Whether each value compares with the next one as it should. Behind the first pair that does
not, nothing is evaluated. -/
def evalChain (a : Datum) : List (Comparison × Expr) → Engine Datum
  | [] => pure (.bool true)
  | (c, e) :: rest => do
    let b ← eval e
    if ← lift ((← rules).compare c a b) then evalChain b rest else return .bool false

def evalAll : List Expr → Engine (List Datum)
  | [] => pure []
  | e :: rest => do
    let d ← eval e
    return d :: (← evalAll rest)

def evalEntries : List (Expr × Expr) → Engine (List (Datum × Datum))
  | [] => pure []
  | (key, e) :: rest => do
    let k ← eval key
    let d ← eval e
    return (k, d) :: (← evalEntries rest)

def evalOption : Option Expr → Engine Datum
  | none => pure .none
  | some e => eval e

def evalParts : List (Option String × Expr) → Engine (List Datum × List (Datum × Datum))
  | [] => pure ([], [])
  | (name, e) :: rest => do
    let d ← eval e
    let (plain, named) ← evalParts rest
    match name with
    | none => return (d :: plain, named)
    | some s => return (plain, (.text s, d) :: named)

end

end

end Stencil.Markup.Engine

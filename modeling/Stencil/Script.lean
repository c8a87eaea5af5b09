import Stencil.Collection
import Stencil.Json.Reader
import Stencil.Template

/-!
A small language for the bodies of helpers and templates. A script is a term; its meaning is code.
An error ends a script where it arises. Inside a walk, and at the top of a template, nobody takes
the error, so it is a panic there.
-/

namespace Stencil

inductive Step
  | key (name : String)
  | index (i : Nat)
  | nowhere
deriving DecidableEq, Repr

def Value.follow : Value → List Step → Value
  | v, [] => v
  | v, .key name :: rest => match v.field? name with
    | some w => follow w rest
    | none => .null
  | v, .index i :: rest => match v.item? i with
    | some w => follow w rest
    | none => .null
  | _, .nowhere :: _ => .null

inductive VisitPart
  | key
  | index
  | total
  | value (path : List Step)
  | other
deriving Repr

def VisitPart.get (visit : Visit) : VisitPart → Value
  | .key => .string visit.key
  | .index => .ofNat visit.index
  | .total => .ofNat visit.total
  | .value path => visit.value.follow path
  | .other => .null

inductive Script (Ω : Type)
  | lit (v : Value)
  | context (path : List Step)
  | visit (part : VisitPart)
  | arguments
  | argument (position : Nat)
  | concat (parts : List (Script Ω))
  | list (items : List (Script Ω))
  | guard (e : Script Ω)
  | walk (collection each : Script Ω)
  /-- Calls the dispatcher; the receiver is the context unless one is given. -/
  | help (name : String) (args : List (Script Ω)) (this : Option (Script Ω))
  | choose (condition yes no : Script Ω)
  | write (e : Script Ω)
  /-- Runs a template body in a context, the present one unless one is given. -/
  | run (body : Script Ω) (context : Option (Script Ω))
  | panic
  | fail (text : String)
  | parse (text : String)
  | wrapped (chain : Chain)
  | perform (ops : List Ω) (next : Script Ω)

namespace Script

variable {Ω : Type}

instance : Inhabited (Script Ω) := ⟨.panic⟩

structure Scope where
  context : Value
  args : List Value := []
  visit : Option Visit := none

abbrev Eval (Ω : Type) := ExceptT HelperError (Code Ω)

def Eval.dispatch (this : Value) (name : String) (args : List Value) : Eval Ω Value :=
  ExceptT.mk (.dispatch this name args fun text => .done (.ok (.string text)))

def performAll (ops : List Ω) : Eval Ω Unit :=
  ExceptT.mk (.performAll ops (.done (.ok ())))

def orPanic (c : Eval Ω Value) : Code Ω Value :=
  c.run.bind fun
    | .ok v => .done v
    | .error _ => .panic

def total (c : Code Ω Value) : Eval Ω Value := ExceptT.mk (c.bind fun v => .done (.ok v))

mutual

def eval (scope : Scope) : Script Ω → Eval Ω Value
  | .lit v => pure v
  | .context path => pure (scope.context.follow path)
  | .visit part => pure ((scope.visit.map part.get).getD .null)
  | .arguments => pure (.array scope.args)
  | .argument position =>
    match scope.args[position]? with
    | some v => pure v
    | none => throw (.missingArgument position)
  | .concat parts => do return .string (String.join ((← evalAll scope parts).map Value.text))
  | .list items => do return .array (← evalAll scope items)
  | .guard e => do return (← eval scope e).guard
  | .walk collection each => do
    let v ← eval scope collection
    total do
      let text ← v.walk fun stop => do
        return (← orPanic (eval { scope with visit := some stop } each)).text
      return .string text
  | .help name args this => do
    let args ← evalAll scope args
    let this ← evalOr scope scope.context this
    Eval.dispatch this name args
  | .choose condition yes no => do
    if (← eval scope condition).isTruthy then eval scope yes else eval scope no
  | .write e => do return .string (Json.write (← eval scope e))
  | .run body under => do
    let data ← evalOr scope scope.context under
    total do return .string (← orPanic (eval ⟨data, [], none⟩ body)).guard.text
  | .panic => ExceptT.mk .panic
  | .fail text => throw (.message text)
  | .parse text =>
    match Json.read text with
    | .ok v => pure v
    | .error e => throw (.json e)
  | .wrapped chain => throw (.other chain)
  | .perform ops next => do
    performAll ops
    eval scope next

def evalAll (scope : Scope) : List (Script Ω) → Eval Ω (List Value)
  | [] => pure []
  | e :: rest => do
    let v ← eval scope e
    return v :: (← evalAll scope rest)

def evalOr (scope : Scope) (default : Value) : Option (Script Ω) → Eval Ω Value
  | none => pure default
  | some e => eval scope e

end

def helper (e : Script Ω) : Helper Ω := fun this args => (eval ⟨this, args, none⟩ e).run

def templateBody (e : Script Ω) : Value → Code Ω Value := fun context =>
  orPanic (eval ⟨context, [], none⟩ e)

end Script

inductive HelperSource (Ω : Type)
  | escape
  | script (e : Script Ω)

def HelperSource.helper {Ω : Type} : HelperSource Ω → Helper Ω
  | .escape => Helper.escape
  | .script e => e.helper

inductive Draft (Ω : Type)
  | mk (body : Script Ω) (blocks : List (String × Draft Ω))

namespace Draft

variable {Ω : Type}

instance : Inhabited (Draft Ω) := ⟨.mk (.lit .null) []⟩

mutual

def template : Draft Ω → Template Ω
  | .mk body blocks => attach (.ofBody body.templateBody) blocks

def attach (t : Template Ω) : List (String × Draft Ω) → Template Ω
  | [] => t
  | (name, block) :: rest => attach (t.withBlock name (template block)) rest

end

end Draft
end Stencil

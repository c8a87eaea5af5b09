import Stencil.Argument
import Stencil.Render

/-!
Parse calls: a render whose output goes to a callback. The render is asked for at the call; a task
of the executor completes it, yields once, and then calls back. A failed render is logged instead.
-/

namespace Stencil.World

variable {Ω : Type}

def performAll (host : Host Ω (World Ω)) (ops : List Ω) (w : World Ω) : World Ω :=
  ops.foldl (fun w op => (host.perform op w).2) w

/-- Calls back: the output is recorded under the label before the callback's operations. -/
def receive (host : Host Ω (World Ω)) (r : Receiver Ω) (output : String) (w : World Ω) : World Ω :=
  performAll host r.ops (w.recordOutput r.label output)

/-- What a parse call renders: nothing at all, if its block is no block name. -/
def selection {κ : Type} : Argument κ → Option (Option String)
  | .absent => some none
  | .block name => some (some name)
  | _ => none

/-- Asks for the render of a parse call, inside the executor, and leaves the rest to a task. -/
def schedule (host : Host Ω (World Ω)) (i : Nat) (name : String) (args : Arguments (Receiver Ω))
    (receiver : Receiver Ω) (w : World Ω) : Answer × World Ω :=
  match selection args.block with
  | none => (.done, w.spawn (.settled "") receiver)
  | some block =>
    match ask host i name args.data.data? block w with
    | (some p, w) => (.done, w.spawn (.rendering p) receiver)
    | (none, w) => (.panicked, w)

def parseShifted (host : Host Ω (World Ω)) (i : Nat) (name : String)
    (args : Arguments (Receiver Ω)) (w : World Ω) : Answer × World Ω :=
  match args.callback.callback? with
  | none => (.failed (.invalidArguments Arguments.notCallable), w)
  | some receiver =>
    if name.isEmpty then (.done, receive host receiver "" w)
    else if w.inExecutor then schedule host i name args receiver w
    else (.failed .noExecutor, w)

/-- A parse call. `executor` says whether the caller stands inside the executor; code that runs
inside it always does. -/
def parse (host : Host Ω (World Ω)) (i : Nat) (name : String) (args : Arguments (Receiver Ω))
    (executor : Bool) (w : World Ω) : Answer × World Ω :=
  let (answer, after) :=
    parseShifted host i name args.shift { w with inExecutor := w.inExecutor || executor }
  (answer, { after with inExecutor := w.inExecutor })

def yieldWith (t : Task Ω) (output : String) (w : World Ω) : World Ω :=
  { w with yielded := w.yielded ++ [{ t with stage := .yielded output }] }

def finish (t : Task Ω) (result : Except Error String) (w : World Ω) : World Ω :=
  let w := w.mark (.rendered t.id result)
  match result with
  | .ok output => yieldWith t output w
  | .error e => w.record (.taskFailed e)

def turn (host : Host Ω (World Ω)) (t : Task Ω) (w : World Ω) : World Ω :=
  match t.stage with
  | .rendering p =>
    match poll host p w with
    | (.pending, w) => { w with parked := w.parked ++ [t] }
    | (.panicked, w) => w.mark (.ruined t.id)
    | (.ready result, w) => finish t result w
  | .settled output => finish t (.ok output) w
  | .yielded output => receive host t.receiver output (w.mark (.called t.id output))

def turns (host : Host Ω (World Ω)) : Nat → World Ω → World Ω
  | 0, w => w
  | n + 1, w =>
    match w.ready with
    | t :: rest => turns host n (turn host t { w with ready := rest })
    | [] =>
      if w.yielded.isEmpty then w
      else turns host n { w with ready := w.yielded, yielded := [] }

def drain (host : Host Ω (World Ω)) (n : Nat) (w : World Ω) : World Ω :=
  { turns host n { w with inExecutor := true } with inExecutor := w.inExecutor }

end Stencil.World

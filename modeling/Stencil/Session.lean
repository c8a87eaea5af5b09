import Stencil.Config.Source
import Stencil.Markup.Loader
import Stencil.Markup.Render
import Stencil.Parse
import Stencil.Script

/-!
Sessions: operations on a world, in order. Loaders, helpers, templates and callbacks may perform
operations while they run, to any depth that is allowed; what those answer is recorded in the order
in which they end.
-/

namespace Stencil

/-- One way in which a scripted loader serves a load: it performs operations first, and then hands
over what it planned, or panics if it planned nothing. -/
structure Attempt (Ω : Type) where
  ops : List Ω
  plan : Option (Plan (Draft Ω))

namespace Attempt

variable {Ω : Type}

def code (a : Attempt Ω) : Code Ω (Handover Ω) :=
  .performAll a.ops <| match a.plan with
    | some plan => .done ⟨plan.map Draft.template, none⟩
    | none => .panic

/-- The attempt for a load that was preceded by `n`: the last one serves all further loads. -/
def choose : List (Attempt Ω) → Nat → Attempt Ω
  | [], _ => ⟨[], none⟩
  | [a], _ => a
  | a :: _, 0 => a
  | _ :: rest, n + 1 => choose rest n

end Attempt

structure LoaderScript (Ω : Type) where
  attempts : List (String × List (Attempt Ω)) := []
  default : List (Attempt Ω)

def LoaderScript.loader {Ω : Type} (s : LoaderScript Ω) (counter : String) : Loader Ω where
  counter := some counter
  load before name := (Attempt.choose ((Entries.get? s.attempts name).getD s.default) before).code

/-- A loader to register: a script, a new library of sources, or the library that is kept under the
loader's name as it is now. If none is kept there, a library is begun with the environment. -/
inductive LoaderSource (Ω : Type)
  | script (s : LoaderScript Ω)
  | library (l : Markup.Library)
  | kept (env : Markup.Environment := ({} : Markup.Settings).environment)

inductive Op
  | create (config : Config.Source)
  | share (handle : Nat)
  | helperNames (handle : Nat)
  | hasLoader (handle : Nat)
  | flush (handle : Nat)
  | isCached (handle : Nat) (name : String)
  | inspect (handle : Nat)
  | registerHelper (handle : Nat) (name : String) (helper : HelperSource Op)
  | setGlobal (handle : Nat) (key : String) (v : Value)
  | addGlobals (handle : Nat) (data : Option Value)
  | callHelper (handle : Nat) (name : String) (this : Value) (args : List Value)
  | registerLoader (handle : Nat) (id : String) (loader : LoaderSource Op)
  | addSource (id name source : String)
      (env : Markup.Environment := ({} : Markup.Settings).environment)
  | calls (id name : String)
  | start (handle : Nat) (id name : String) (data : Option Value) (block : Option String)
  | poll (id : String)
  | drop (id : String)
  | render (handle : Nat) (name : String) (data : Option Value) (block : Option String)
  | release (gate : String)
  | parse (handle : Nat) (name : String) (args : Arguments (Receiver Op)) (executor : Bool)
  | drain
deriving Inhabited

namespace Session

def turnLimit : Nat := 100000

abbrev SessionHost := Host Op (World Op)

/-- The renderer that a handle refers to. A handle that was never given out refers to none. -/
def resolve (w : World Op) (handle : Nat) : Nat := (w.handles[handle]?).getD w.renderers.length

def view (w : World Op) (handle : Nat) (f : Renderer Op → Answer) : Answer × World Op :=
  (((w.renderer? (resolve w handle)).map f).getD .silent, w)

def change (w : World Op) (handle : Nat) (f : Renderer Op → Renderer Op) : Answer × World Op :=
  (.done, w.update (resolve w handle) f)

def registerLoader (w : World Op) (handle : Nat) (id : String) (source : LoaderSource Op) :
    Answer × World Op :=
  match source with
  | .script s => change w handle fun r => r.registerLoader (s.loader id)
  | .library l =>
    change { w with libraries := w.libraries.insert id l } handle fun r => r.registerLoader l.loader
  | .kept env =>
    let l := w.libraryFor env id
    change { w with libraries := w.libraries.insert id l } handle fun r => r.registerLoader l.loader

def start (host : SessionHost) (w : World Op) (handle : Nat) (id name : String)
    (data : Option Value) (block : Option String) : Answer × World Op :=
  match w.ask host (resolve w handle) name data block with
  | (some p, w) => (.started, { w with renders := w.renders.insert id p })
  | (none, w) => (.panicked, w)

/-- Polls a kept render. It is out of reach while it is polled, and gone once it has a result. -/
def poll (host : SessionHost) (w : World Op) (id : String) : Answer × World Op :=
  match w.renders.get? id with
  | none => (.unknown, w)
  | some p =>
    match World.poll host p { w with renders := w.renders.erase id } with
    | (.pending, w) => (.pending, { w with renders := w.renders.insert id p })
    | (.panicked, w) => (.panicked, w)
    | (.ready result, w) => (.ofResult result, w)

def render (host : SessionHost) (w : World Op) (handle : Nat) (name : String) (data : Option Value)
    (block : Option String) : Answer × World Op :=
  match w.ask host (resolve w handle) name data block with
  | (none, w) => (.panicked, w)
  | (some p, w) =>
    match World.poll host p w with
    | (.pending, w) => (.pending, w)
    | (.panicked, w) => (.panicked, w)
    | (.ready result, w) => (.ofResult result, w)

def flush (w : World Op) (handle : Nat) : Answer × World Op :=
  match w.renderer? (resolve w handle) with
  | none => (.silent, w)
  | some r =>
    change ((w.note (.flushed (resolve w handle))).record (.flushing r.cache.size)) handle
      Renderer.flush

def step (host : SessionHost) (w : World Op) : Op → Answer × World Op
  | .create config =>
    match config.read with
    | .ok c => (.renderer w.handles.length, w.addRenderer (.ofConfig c))
    | .error e => (.failed e, w)
  | .share handle => (.renderer w.handles.length, w.addHandle (resolve w handle))
  | .helperNames handle => view w handle fun r => .names r.helpers.names
  | .hasLoader handle => view w handle fun r => .hasLoader r.hasLoader
  | .flush handle => flush w handle
  | .isCached handle name => view w handle fun r => .cached (r.isCached name)
  | .inspect handle => view w handle fun r => .inspected r.inspect
  | .registerHelper handle name helper =>
    change w handle fun r => r.registerHelper name helper.helper
  | .setGlobal handle key v => change w handle fun r => r.setGlobal key v
  | .addGlobals handle data => view w handle fun r => .context (r.addGlobals data)
  | .callHelper handle name this args =>
    match w.renderer? (resolve w handle) with
    | none => (.silent, w)
    | some r =>
      let (text, w) := r.helpers.dispatch host this name args w
      (.output text, w)
  | .registerLoader handle id loader => registerLoader w handle id loader
  | .addSource id name source env =>
    let l := (w.libraryFor env id).add name source
    (.done, { w with libraries := w.libraries.insert id l })
  | .calls id name => (.calls (w.callCount id name), w)
  | .start handle id name data block => start host w handle id name data block
  | .poll id => poll host w id
  | .drop id => (.dropped (w.renders.contains id), { w with renders := w.renders.erase id })
  | .render handle name data block => render host w handle name data block
  | .release gate =>
    let (count, w) := w.release gate
    (.released count, w)
  | .parse handle name args executor => w.parse host (resolve w handle) name args executor
  | .drain => (.silent, w.drain host turnLimit)

/-- What surrounds code at a depth: its operations are steps at the next depth. At the end of the
allowed depth they do nothing. -/
def hostAt : Nat → SessionHost
  | 0 => ⟨fun _ w => (.silent, w), fun r w => w.record r⟩
  | n + 1 =>
    { perform := fun op w =>
        let (answer, w) := step (hostAt n) w op
        (answer, w.recordAnswer answer)
      log := fun r w => w.record r }

def depthLimit : Nat := 1000

structure Report where
  answer : Answer
  log : List Record
  outputs : List (String × String)
  answers : List Answer

/-- A step on its own: nothing recorded before shows in its report. -/
def reportStep (w : World Op) (op : Op) : Report × World Op :=
  let (answer, w) := step (hostAt depthLimit) { w with log := [], outputs := [], answers := [] } op
  (⟨answer, w.log, w.outputs, w.answers⟩, w)

def run : World Op → List Op → List Report
  | _, [] => []
  | w, op :: rest =>
    let (report, w) := reportStep w op
    report :: run w rest

end Session
end Stencil

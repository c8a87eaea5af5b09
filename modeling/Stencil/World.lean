import Stencil.Answer
import Stencil.Markup.Library
import Stencil.Renderer

/-!
Everything that code can change: the renderers with the handles to them, the loads, the renders that
were asked for, the tasks of the executor, and what was recorded on the way.

A record is a value, so what one operation leaves alone is read off its definition.
-/

namespace Stencil

/-- The entry of a cache that a render was bound to when it was asked for. -/
structure Binding where
  generation : Nat
  load : Nat
deriving DecidableEq, Repr

/-- A render that was asked for. All that it needs from the moment of the call is in it; it has no
binding if there was no loader then. -/
structure Pending where
  renderer : Nat
  name : String
  context : Context
  block : Option String
  binding : Option Binding

def Pending.load? (p : Pending) : Option Nat := p.binding.map (·.load)

theorem Pending.load?_of_binding {p : Pending} {b : Binding} (h : p.binding = some b) :
    p.load? = some b.load := by
  simp [load?, h]

structure Receiver (Ω : Type) where
  label : String
  ops : List Ω := []

/-- How far a task is: its render still goes on, or the output is there and the task waits for its
next turn. -/
inductive Stage
  | rendering (p : Pending)
  | settled (output : String)
  | yielded (output : String)

structure Task (Ω : Type) where
  id : Nat
  stage : Stage
  receiver : Receiver Ω

def Task.load? {Ω : Type} (t : Task Ω) : Option Nat :=
  match t.stage with
  | .rendering p => p.load?
  | _ => none

/-- What the world remembers of its caches and of those who wait for loads. -/
inductive Event (Ω : Type)
  | flushed (renderer : Nat)
  | invoked (renderer : Nat) (name : String) (load : Nat)
  /-- A render got the result of the load that it was bound to. -/
  | received (p : Pending) (result : LoadResult (Template Ω))

/-- What becomes of a task: its render ends or panics, and its callback is called. -/
inductive Milestone
  | rendered (task : Nat) (result : Except Error String)
  | ruined (task : Nat)
  | called (task : Nat) (output : String)

structure World (Ω : Type) where
  /-- The renderers that the handles refer to; two handles may share one. -/
  handles : List Nat := []
  renderers : List (Renderer Ω) := []
  loads : Loads (Work Ω) (Template Ω) := {}
  /-- How often each name was loaded under each counter. -/
  counts : List ((String × String) × Nat) := []
  libraries : Entries Markup.Library := []
  renders : Entries Pending := []
  ready : List (Task Ω) := []
  yielded : List (Task Ω) := []
  parked : List (Task Ω) := []
  /-- How many tasks there were so far; each has its number. -/
  spawned : Nat := 0
  inExecutor : Bool := false
  log : List Record := []
  outputs : List (String × String) := []
  answers : List Answer := []
  /-- All that happened, in order. No code can see it. -/
  history : List (Event Ω) := []
  /-- What became of the tasks, in order. No code can see it either. -/
  journal : List Milestone := []

namespace World

variable {Ω : Type}

def record (w : World Ω) (r : Record) : World Ω := { w with log := w.log ++ [r] }

def recordAnswer (w : World Ω) (a : Answer) : World Ω := { w with answers := w.answers ++ [a] }

def recordOutput (w : World Ω) (label output : String) : World Ω :=
  { w with outputs := w.outputs ++ [(label, output)] }

def note (w : World Ω) (e : Event Ω) : World Ω := { w with history := w.history ++ [e] }

def mark (w : World Ω) (m : Milestone) : World Ω := { w with journal := w.journal ++ [m] }

def renderer? (w : World Ω) (i : Nat) : Option (Renderer Ω) := w.renderers[i]?

def update (w : World Ω) (i : Nat) (f : Renderer Ω → Renderer Ω) : World Ω :=
  { w with renderers := w.renderers.modify i f }

def setCache (w : World Ω) (i : Nat) (cache : Cache Nat) : World Ω :=
  w.update i fun r => { r with cache := cache }

def addRenderer (w : World Ω) (r : Renderer Ω) : World Ω :=
  { w with renderers := w.renderers ++ [r], handles := w.handles ++ [w.renderers.length] }

def addHandle (w : World Ω) (i : Nat) : World Ω := { w with handles := w.handles ++ [i] }

def callCount (w : World Ω) (counter name : String) : Nat :=
  (w.counts.lookup (counter, name)).getD 0

def countCall (w : World Ω) (counter : Option String) (name : String) : World Ω :=
  match counter with
  | none => w
  | some counter =>
    { w with counts := ((counter, name), w.callCount counter name + 1) ::
        w.counts.filter (·.1 != (counter, name)) }

def libraryFor (w : World Ω) (env : Markup.Environment) (id : String) : Markup.Library :=
  (w.libraries.get? id).getD { settings := env }

/-- Tasks that wait for a load get ready, in the order in which they began to wait. -/
def wake (w : World Ω) (load : Nat) : World Ω :=
  let (woken, parked) := w.parked.partition (·.load? == some load)
  { w with parked := parked, ready := w.ready ++ woken }

def release (w : World Ω) (gate : String) : Nat × World Ω :=
  let (opened, loads) := w.loads.release gate
  (opened.length, opened.foldl wake { w with loads := loads })

def spawn (w : World Ω) (stage : Stage) (receiver : Receiver Ω) : World Ω :=
  { w with ready := w.ready ++ [⟨w.spawned, stage, receiver⟩], spawned := w.spawned + 1 }

end World
end Stencil

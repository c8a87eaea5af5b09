import Stencil.World

/-!
Rendering. A call fixes the context and binds the render to one load, starting it if the name is not
cached. Polls complete the render: the load's result is looked at, and the template runs with the
helpers of that moment.
-/

namespace Stencil

/-- What a poll finds. Once it panicked, it finds nothing else any more. -/
inductive Polled (α : Type)
  | pending
  | ready (a : α)
  | panicked

namespace World

variable {Ω : Type}

/-- Runs a loader for a reserved load. Gives whether it returned: one that panics gives the load
up. -/
def runLoader (host : Host Ω (World Ω)) (loader : Loader Ω) (load : Nat) (name : String)
    (w : World Ω) : Bool × World Ω :=
  let before := (loader.counter.map (w.callCount · name)).getD 0
  match (loader.load before name).run host .none (w.countCall loader.counter name) with
  | (some h, w) => (true, { w with loads := w.loads.start load h.work h.plan }.wake load)
  | (none, w) => (false, { w with loads := w.loads.orphan load }.wake load)

/-- The entry for a name in the cache of a renderer, made with a load that is reserved for it if
there is none. -/
def reserve (w : World Ω) (i : Nat) (r : Renderer Ω) (name : String) : Lookup Nat × World Ω :=
  let (fresh, loads) := w.loads.reserve
  let (lookup, cache) := r.cache.getOrInsert name fresh
  (lookup, { w with loads := loads }.setCache i cache)

/-- Finds the cached load of a name, or starts one; `none` when the loader panics. The name is
cached before its loader runs. -/
def bindLoad (host : Host Ω (World Ω)) (i : Nat) (r : Renderer Ω) (loader : Loader Ω)
    (name : String) (w : World Ω) : Option Binding × World Ω :=
  let (lookup, reserved) := w.reserve i r name
  let binding : Binding := ⟨lookup.generation, lookup.handle⟩
  if lookup.hit then (some binding, w.record (.servedFromCache name))
  else
    let (kept, w) := runLoader host loader lookup.handle name
      ((reserved.note (.invoked i name lookup.handle)).record (.loading name))
    (if kept then some binding else none, w)

/-- Asks for a render; `none` when the loader panics. An empty block name stands for the whole
template. -/
def ask (host : Host Ω (World Ω)) (i : Nat) (name : String) (data : Option Value)
    (block : Option String) (w : World Ω) : Option Pending × World Ω :=
  match w.renderer? i with
  | none => (none, w)
  | some r =>
    let pending : Pending := ⟨i, name, r.addGlobals data, block.filter (· != ""), none⟩
    match r.loader with
    | none => (some pending, w)
    | some loader =>
      match bindLoad host i r loader name w with
      | (some binding, w) => (some { pending with binding := some binding }, w)
      | (none, w) => (none, w)

/-- Drops the cache entry of a failed load, if the policy says so and the entry is still the one
that the render was bound to. -/
def evictFailed (p : Pending) (b : Binding) (w : World Ω) : World Ω :=
  match w.renderer? p.renderer with
  | some r =>
    if r.policy = .evictOnError then
      let (evicted, cache) := r.cache.evict p.name b.generation
      if evicted then (w.setCache p.renderer cache).record (.evicted p.name) else w
    else w
  | none => w

def runTemplate (host : Host Ω (World Ω)) (p : Pending) (t : Template Ω) (w : World Ω) :
    Except Error String × World Ω :=
  let helpers := ((w.renderer? p.renderer).map (·.helpers)).getD .empty
  match t.run host helpers (.object p.context) w with
  | (some output, w) => (.ok output, w)
  | (none, w) => (.error (.templateRender p.name), w.record (.templatePanicked p.name))

def complete (host : Host Ω (World Ω)) (p : Pending) (b : Binding)
    (result : LoadResult (Template Ω)) (w : World Ω) : Except Error String × World Ω :=
  match result with
  | .error e => (.error (.templateLoad p.name e), evictFailed p b w)
  | .ok none => (.ok "", w.record (.nothingLoaded p.name))
  | .ok (some t) =>
    match p.block with
    | none => runTemplate host p t w
    | some name =>
      match t.block? name with
      | some block => runTemplate host p block w
      | none => (.ok "", w.record (.missingBlock p.name name))

/-- Has the future of a load do its work, unless another poll is at it or the result is there
already. Gives whether the load is in order: work that panics ruins it. -/
def drive (host : Host Ω (World Ω)) (load : Nat) (w : World Ω) : Bool × World Ω :=
  match w.loads.worker load with
  | .idle work =>
    match work.run host .none { w with loads := w.loads.enter load } with
    | (some found, w) => (true, { w with loads := w.loads.leave load found })
    | (none, w) => (false, { w with loads := w.loads.poison load })
  | .poisoned => (false, w)
  | _ => (true, w)

def pollLoad (host : Host Ω (World Ω)) (load : Nat) (w : World Ω) :
    Polled (LoadResult (Template Ω)) × World Ω :=
  match drive host load w with
  | (false, w) => (.panicked, w)
  | (true, w) =>
    let (result, loads) := w.loads.poll load
    match result with
    | none => (.pending, { w with loads := loads })
    | some result => (.ready result, { w.wake load with loads := loads })

def poll (host : Host Ω (World Ω)) (p : Pending) (w : World Ω) :
    Polled (Except Error String) × World Ω :=
  match p.binding with
  | none => (.ready (.error (.noLoader p.name)), w)
  | some b =>
    match pollLoad host b.load w with
    | (.pending, w) => (.pending, w)
    | (.panicked, w) => (.panicked, w)
    | (.ready result, w) =>
      let (output, w) := complete host p b result (w.note (.received p result))
      (.ready output, w)

end World
end Stencil

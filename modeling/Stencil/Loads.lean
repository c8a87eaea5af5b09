import Stencil.Load

/-!
All loads that were ever started, by number, and the gates that hold events of theirs back. A gate
opens for the events that wait behind it at that moment; later ones wait again.

The future of a load may have work to do in each poll. What work is, is left open here; it is of a
type `ω`.
-/

namespace Stencil

/-- The work of a load's future: there is none, it is done in the next poll, it is being done inside
of a poll, or it panicked. -/
inductive Worker (ω : Type)
  | absent
  | idle (work : ω)
  | busy (work : ω)
  | poisoned

/-- A load that was asked for: its loader is still at work, or has handed it over. -/
inductive Slot (ω τ : Type)
  | reserved
  | started (shared : Shared τ) (worker : Worker ω)

inductive Outcome (τ : Type)
  | template (t : τ)
  | nothing
  | failed (reason : String)
  | abandoned

structure Gated (τ : Type) where
  outcome : Outcome τ
  gate : Option String := none

/-- What a loader hands back. A dual loader may keep either side to itself. -/
inductive Plan (τ : Type)
  | future (f : Gated τ)
  | callback (c : Gated τ)
  | dual (c f : Option (Gated τ))

variable {ω τ : Type}

namespace Outcome

def map {υ : Type} (g : τ → υ) : Outcome τ → Outcome υ
  | .template t => .template (g t)
  | .nothing => .nothing
  | .failed reason => .failed reason
  | .abandoned => .abandoned

def ready : Outcome τ → LoadEvent τ
  | .template t => .ready (.ok (some t))
  | .nothing => .ready (.ok none)
  | .failed reason => .ready (.error (.failed reason))
  | .abandoned => .ready (.error .abandoned)

/-- A callback carries no error: it is dropped instead. -/
def callback : Outcome τ → LoadEvent τ
  | .template t => .call (some t)
  | .nothing => .call none
  | .failed _ => .drop
  | .abandoned => .drop

end Outcome

def Gated.map {υ : Type} (g : τ → υ) (o : Gated τ) : Gated υ := ⟨o.outcome.map g, o.gate⟩

def Plan.map {υ : Type} (g : τ → υ) : Plan τ → Plan υ
  | .future f => .future (f.map g)
  | .callback c => .callback (c.map g)
  | .dual c f => .dual (c.map (Gated.map g)) (f.map (Gated.map g))

namespace Worker

def isFree : Worker ω → Bool
  | .absent | .idle _ => true
  | .busy _ | .poisoned => false

def enter : Worker ω → Worker ω
  | .idle work => .busy work
  | k => k

def leave : Worker ω → Worker ω
  | .busy work => .idle work
  | k => k

def ofOption : Option ω → Worker ω
  | some work => .idle work
  | none => .absent

end Worker

namespace Slot

def receive : Slot ω τ → LoadEvent τ → Slot ω τ
  | .started shared worker, e => .started (shared.receive e) worker
  | s, _ => s

def poll : Slot ω τ → Option (LoadResult τ) × Slot ω τ
  | .reserved => (none, .reserved)
  | .started shared worker =>
    if worker.isFree then
      let (result, shared) := shared.poll
      (result, .started shared worker)
    else (shared.result, .started shared worker)

def setWorker (f : Worker ω → Worker ω) : Slot ω τ → Slot ω τ
  | .started shared worker => .started shared (f worker)
  | s => s

def result? : Slot ω τ → Option (LoadResult τ)
  | .reserved => none
  | .started shared _ => shared.result

def worker : Slot ω τ → Worker ω
  | .started ⟨_, none⟩ worker => worker
  | _ => .absent

end Slot

structure Waiting (τ : Type) where
  gate : String
  load : Nat
  event : LoadEvent τ

structure Loads (ω τ : Type) where
  slots : List (Slot ω τ) := []
  waiting : List (Waiting τ) := []

namespace Loads

def update (ls : Loads ω τ) (i : Nat) (f : Slot ω τ → Slot ω τ) : Loads ω τ :=
  { ls with slots := ls.slots.modify i f }

def reserve (ls : Loads ω τ) : Nat × Loads ω τ :=
  (ls.slots.length, { ls with slots := ls.slots ++ [.reserved] })

def deliver (ls : Loads ω τ) (i : Nat) (load : Load τ) (work : Option ω) : Loads ω τ :=
  ls.update i fun
    | .reserved => .started ⟨load, none⟩ (.ofOption work)
    | s => s

def orphan (ls : Loads ω τ) (i : Nat) : Loads ω τ :=
  ls.deliver i (.future (.ready (.error .abandoned))) none

def schedule (ls : Loads ω τ) (i : Nat) (event : LoadEvent τ) : Option String → Loads ω τ
  | none => ls.update i (·.receive event)
  | some gate => { ls with waiting := ls.waiting ++ [⟨gate, i, event⟩] }

/-- Hands over a load as planned. The callback of a dual loader is handled before its future; it is
dropped at once if the loader does not keep it. -/
def start (ls : Loads ω τ) (i : Nat) (work : Option ω) : Plan τ → Loads ω τ
  | .future f => (ls.deliver i (.future .pending) work).schedule i f.outcome.ready f.gate
  | .callback c => (ls.deliver i (.callback .held) work).schedule i c.outcome.callback c.gate
  | .dual c f =>
    let ls := ls.deliver i (if f.isSome then .dual .held .pending else .callback .held) work
    let ls := match c with
      | some c => ls.schedule i c.outcome.callback c.gate
      | none => ls.schedule i .drop none
    match f with
    | some f => ls.schedule i f.outcome.ready f.gate
    | none => ls

/-- Opens a gate. The loads that had an event behind it are given back in order. -/
def release (ls : Loads ω τ) (gate : String) : List Nat × Loads ω τ :=
  let (open', shut) := ls.waiting.partition (·.gate == gate)
  (open'.map (·.load),
    open'.foldl (fun ls w => ls.update w.load (·.receive w.event)) { ls with waiting := shut })

/-- Looks at a load; an unknown number is pending for ever. -/
def poll (ls : Loads ω τ) (i : Nat) : Option (LoadResult τ) × Loads ω τ :=
  match ls.slots[i]? with
  | none => (none, ls)
  | some slot =>
    let (result, slot) := slot.poll
    (result, ls.update i fun _ => slot)

def result? (ls : Loads ω τ) (i : Nat) : Option (LoadResult τ) := ls.slots[i]?.bind Slot.result?

def worker (ls : Loads ω τ) (i : Nat) : Worker ω := (ls.slots[i]?.map Slot.worker).getD .absent

/-- A poll sets about the work of a load: until it is through, no other poll finds anything. -/
def enter (ls : Loads ω τ) (i : Nat) : Loads ω τ := ls.update i (·.setWorker .enter)

/-- The work is through. If it found the result, the future gets ready by it. -/
def leave (ls : Loads ω τ) (i : Nat) (found : Option (LoadResult τ)) : Loads ω τ :=
  let ls := ls.update i (·.setWorker .leave)
  match found with
  | some result => ls.update i (·.receive (.ready result))
  | none => ls

def poison (ls : Loads ω τ) (i : Nat) : Loads ω τ := ls.update i (·.setWorker fun _ => .poisoned)

end Loads
end Stencil

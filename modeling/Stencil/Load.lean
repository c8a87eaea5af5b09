import Stencil.Error

/-!
A load in progress. What a loader hands back is a future, a callback, or both. Events settle the
sides; polls look at them. With both sides the future is looked at first, and a callback that was
dropped leaves the load to the future.

`τ` is what is loaded. A load may end without it: the loader had nothing for the name.
-/

namespace Stencil

abbrev LoadResult (τ : Type) := Except LoadError (Option τ)

inductive Callback (τ : Type)
  | held
  | called (value : Option τ)
  | dropped

inductive Future (τ : Type)
  | pending
  | ready (result : LoadResult τ)

inductive Load (τ : Type)
  | future (f : Future τ)
  | callback (c : Callback τ)
  | dual (c : Callback τ) (f : Future τ)

inductive LoadEvent (τ : Type)
  | call (value : Option τ)
  | drop
  | ready (result : LoadResult τ)

variable {τ : Type}

namespace Callback

def receive : Callback τ → LoadEvent τ → Callback τ
  | .held, .call value => .called value
  | .held, .drop => .dropped
  | c, _ => c

/-- What the receiving end of a callback sees: nothing yet, a value, or that it was dropped. -/
def poll : Callback τ → Option (LoadResult τ)
  | .held => none
  | .called value => some (.ok value)
  | .dropped => some (.error .abandoned)

end Callback

namespace Future

def receive : Future τ → LoadEvent τ → Future τ
  | .pending, .ready result => .ready result
  | f, _ => f

def poll : Future τ → Option (LoadResult τ)
  | .pending => none
  | .ready result => some result

end Future

namespace Load

def receive : Load τ → LoadEvent τ → Load τ
  | .future f, e => .future (f.receive e)
  | .callback c, e => .callback (c.receive e)
  | .dual c f, e => .dual (c.receive e) (f.receive e)

def poll : Load τ → Option (LoadResult τ)
  | .future f => f.poll
  | .callback c => c.poll
  | .dual c f =>
    match f.poll, c with
    | some result, _ => some result
    | none, .called value => some (.ok value)
    | none, _ => none

end Load

/-- A load as it is shared by all who wait for it: the first poll that finds a result fixes it. -/
structure Shared (τ : Type) where
  load : Load τ
  result : Option (LoadResult τ) := none

namespace Shared

def receive (s : Shared τ) (e : LoadEvent τ) : Shared τ := { s with load := s.load.receive e }

def poll (s : Shared τ) : Option (LoadResult τ) × Shared τ :=
  match s.result with
  | some result => (some result, s)
  | none =>
    match s.load.poll with
    | some result => (some result, { s with result := some result })
    | none => (none, s)

end Shared
end Stencil

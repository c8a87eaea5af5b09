import Stencil.Cache
import Stencil.Loads
import Stencil.Template

/-!
A cache on its own, used in steps. The handles that it gives out are numbers of loads, so a handle
goes on resolving after its entry is gone.
-/

namespace Stencil.Cache

structure Trace (Ω : Type) where
  cache : Cache Nat := {}
  loads : Loads Unit (Template Ω) := {}
  lookups : List Nat := []

inductive Use (Ω : Type)
  | get (name : String) (load : Gated (Template Ω))
  | evict (name : String) (generation : Nat)
  | clear
  | contains (name : String)
  | release (gate : String)
  | resolve (lookup : Nat)
  | inspect

inductive Seen (Ω : Type)
  | lookup (generation : Nat) (hit : Bool) (loads : Nat)
  | evicted (b : Bool)
  | cleared
  | contains (b : Bool)
  | released (count : Nat)
  | pending
  | resolved (result : LoadResult (Template Ω))
  | inspected (text : String)

namespace Trace

variable {Ω : Type}

def step (t : Trace Ω) : Use Ω → Seen Ω × Trace Ω
  | .get name load =>
    let (fresh, loads) := t.loads.reserve
    let (found, cache) := t.cache.getOrInsert name fresh
    let loads := if found.hit then t.loads else loads.start fresh none (.future load)
    (.lookup found.generation found.hit loads.slots.length,
      ⟨cache, loads, t.lookups ++ [found.handle]⟩)
  | .evict name generation =>
    let (evicted, cache) := t.cache.evict name generation
    (.evicted evicted, { t with cache := cache })
  | .clear => (.cleared, { t with cache := t.cache.clear })
  | .contains name => (.contains (t.cache.contains name), t)
  | .release gate =>
    let (opened, loads) := t.loads.release gate
    (.released opened.length, { t with loads := loads })
  | .resolve lookup =>
    match t.lookups[lookup]? with
    | none => (.pending, t)
    | some load =>
      let (result, loads) := t.loads.poll load
      ((result.map .resolved).getD .pending, { t with loads := loads })
  | .inspect => (.inspected t.cache.inspect, t)

end Trace
end Stencil.Cache

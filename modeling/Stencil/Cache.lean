import Stencil.Entries
import Stencil.Text.Inspect

/-!
A cache of handles by name. Each entry is tagged with the generation in which it was made, so that
a late removal does not hit a newer entry of the same name.
-/

namespace Stencil

inductive CachePolicy
  | evictOnError
  | retain
deriving DecidableEq, Repr

def CachePolicy.inspect : CachePolicy → String
  | .evictOnError => "EvictOnError"
  | .retain => "Retain"

/-- A generation is used once: `next` is above every generation given out so far. -/
structure Cache (η : Type) where
  entries : Entries (Nat × η) := []
  next : Nat := 0

structure Lookup (η : Type) where
  generation : Nat
  handle : η
  hit : Bool

namespace Cache

variable {η : Type}

def empty : Cache η := {}

def getOrInsert (c : Cache η) (name : String) (fresh : η) : Lookup η × Cache η :=
  match c.entries.get? name with
  | some (generation, handle) => (⟨generation, handle, true⟩, c)
  | none =>
    (⟨c.next, fresh, false⟩, ⟨c.entries.insert name (c.next, fresh), c.next + 1⟩)

/-- Removes the entry for a name if it is still the one of that generation; whether it did. -/
def evict (c : Cache η) (name : String) (generation : Nat) : Bool × Cache η :=
  match c.entries.get? name with
  | some (g, _) =>
    if g = generation then (true, { c with entries := c.entries.erase name }) else (false, c)
  | none => (false, c)

def clear (c : Cache η) : Cache η := { c with entries := [] }

def contains (c : Cache η) (name : String) : Bool := c.entries.contains name

def size (c : Cache η) : Nat := c.entries.length

def isEmpty (c : Cache η) : Bool := c.entries.isEmpty

def inspect (c : Cache η) : String :=
  "TemplateCache \x7b templates: " ++ Text.inspectAll c.entries.keys ++ " \x7d"

theorem getOrInsert_of_hit {c : Cache η} {name : String} {generation : Nat} {handle : η}
    (h : c.entries.get? name = some (generation, handle)) (fresh : η) :
    c.getOrInsert name fresh = (⟨generation, handle, true⟩, c) := by
  simp [getOrInsert, h]

theorem getOrInsert_of_miss {c : Cache η} {name : String} (h : c.entries.get? name = none)
    (fresh : η) :
    c.getOrInsert name fresh =
      (⟨c.next, fresh, false⟩, ⟨c.entries.insert name (c.next, fresh), c.next + 1⟩) := by
  simp [getOrInsert, h]

@[simp] theorem next_evict (c : Cache η) (name : String) (generation : Nat) :
    (c.evict name generation).2.next = c.next := by
  unfold evict
  split
  · split <;> rfl
  · rfl

theorem evict_of_fst_eq_false {c : Cache η} {name : String} {generation : Nat}
    (h : (c.evict name generation).1 = false) : (c.evict name generation).2 = c := by
  unfold evict at h ⊢
  split
  · split <;> simp_all
  · rfl

theorem size_evict_of_fst {c : Cache η} {name : String} {generation : Nat}
    (h : (c.evict name generation).1 = true) :
    (c.evict name generation).2.size + 1 = c.size := by
  unfold evict at h ⊢
  split
  · rename_i g handle hg
    split
    · have cached : name ∈ c.entries.keys := (Entries.get?_isSome_iff ..).mp (by simp [hg])
      have erased := congrArg List.length (Entries.keys_erase c.entries name)
      have positive := List.length_pos_of_mem cached
      rw [List.length_erase_of_mem cached] at erased
      simp only [Entries.keys, List.length_map, size] at *
      omega
    · simp_all
  · simp_all

theorem nodup_keys_evict {c : Cache η} (h : c.entries.keys.Nodup) (name : String)
    (generation : Nat) : (c.evict name generation).2.entries.keys.Nodup := by
  unfold evict
  split
  · split
    · exact Entries.nodup_keys_erase h name
    · exact h
  · exact h

theorem get?_evict {c : Cache η} (h : c.entries.keys.Nodup) (name other : String)
    (generation : Nat) :
    (c.evict name generation).2.entries.get? other =
      if name = other ∧ (c.entries.get? name).map (·.1) = some generation then none
      else c.entries.get? other := by
  unfold evict
  split
  · rename_i g handle hg
    by_cases hgen : g = generation
    · simp [hg, hgen, Entries.get?_erase h]
    · simp [hg, hgen]
  · rename_i hg
    simp [hg]

end Cache
end Stencil

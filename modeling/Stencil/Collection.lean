import Stencil.Value

/-!
Walking a collection. An object is walked in the order of its keys, an array in the order of its
elements, each under its decimal index; any other value is not walked.
-/

namespace Stencil

structure Visit where
  key : String
  index : Nat
  total : Nat
  value : Value
deriving Repr

namespace Value

section

variable {m : Type → Type} [Monad m] (each : Visit → m String) (total : Nat)

/-- Visits the entries from the one at `index` on. What `each` gives goes behind `out`. -/
def walkEntries : Nat → String → Entries Value → m String
  | _, out, [] => pure out
  | index, out, (key, v) :: rest => do
    let text ← each ⟨key, index, total, v⟩
    walkEntries (index + 1) (out ++ text) rest

def walkItems : Nat → String → List Value → m String
  | _, out, [] => pure out
  | index, out, v :: rest => do
    let text ← each ⟨toString index, index, total, v⟩
    walkItems (index + 1) (out ++ text) rest

/-- Calls `each` once per stop, in order, and concatenates what it gives. -/
def walk (v : Value) : m String :=
  match v with
  | .object entries => walkEntries each entries.length 0 "" entries
  | .array items => walkItems each items.length 0 "" items
  | _ => pure ""

end

def indexed (items : List Value) : Entries Value := items.mapIdx fun i v => (toString i, v)

def entries : Value → Entries Value
  | .object entries => entries
  | .array items => indexed items
  | _ => []

def visits (v : Value) : List Visit :=
  v.entries.mapIdx fun i e => ⟨e.1, i, v.entries.length, e.2⟩

section

variable {m : Type → Type} [Monad m] (each : Visit → m String)

theorem walkItems_eq_walkEntries (total index : Nat) (out : String) (items : List Value) :
    walkItems each total index out items =
      walkEntries each total index out (items.mapIdx fun j v => (toString (index + j), v)) := by
  induction items generalizing index out with
  | nil => rfl
  | cons v rest ih =>
    have shift (j : Nat) : index + 1 + j = index + (j + 1) := by omega
    simp only [List.mapIdx_cons, walkItems, walkEntries, ih, Nat.add_zero, shift]

theorem walk_eq_walkEntries (v : Value) :
    v.walk each = walkEntries each v.entries.length 0 "" v.entries := by
  cases v with
  | object entries => rfl
  | array items =>
    simp only [walk, entries, walkItems_eq_walkEntries, indexed, List.length_mapIdx, Nat.zero_add]
  | null => rfl
  | bool b => rfl
  | number n => rfl
  | string s => rfl

end

end Value
end Stencil

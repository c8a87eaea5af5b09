import Stencil.Answer
import Stencil.Log

/-!
What a template or a helper does while it runs, as a tree of the calls that it makes. The tree says
nothing about what the calls do; a `Host` does. `Ω` is the type of the operations that code may
perform on what surrounds it; what they answer, it may go by.
-/

namespace Stencil

inductive Code (Ω α : Type)
  | done (a : α)
  | panic
  | log (record : Record) (next : Code Ω α)
  | perform (op : Ω) (next : Answer → Code Ω α)
  /-- Looks at the names of the helpers. -/
  | names (next : List String → Code Ω α)
  /-- Has the dispatcher run a helper and goes on with what it prints. -/
  | dispatch (this : Value) (name : String) (args : List Value) (next : String → Code Ω α)

namespace Code

variable {Ω α β γ : Type}

def bind : Code Ω α → (α → Code Ω β) → Code Ω β
  | .done a, f => f a
  | .panic, _ => .panic
  | .log r next, f => .log r (next.bind f)
  | .perform op next, f => .perform op fun a => (next a).bind f
  | .names next, f => .names fun names => (next names).bind f
  | .dispatch this name args next, f => .dispatch this name args fun s => (next s).bind f

def performAll (ops : List Ω) (next : Code Ω α) : Code Ω α :=
  ops.foldr (fun op next => .perform op fun _ => next) next

instance : Monad (Code Ω) where
  pure := .done
  bind := bind

theorem bind_done (c : Code Ω α) : c.bind .done = c := by
  induction c with
  | done a => rfl
  | panic => rfl
  | log r next ih => simp [bind, ih]
  | perform op next ih => simp [bind, ih]
  | names next ih => simp [bind, ih]
  | dispatch this name args next ih => simp [bind, ih]

theorem bind_assoc (c : Code Ω α) (f : α → Code Ω β) (g : β → Code Ω γ) :
    (c.bind f).bind g = c.bind fun a => (f a).bind g := by
  induction c with
  | done a => rfl
  | panic => rfl
  | log r next ih => simp [bind, ih]
  | perform op next ih => simp [bind, ih]
  | names next ih => simp [bind, ih]
  | dispatch this name args next ih => simp [bind, ih]

instance : LawfulMonad (Code Ω) :=
  LawfulMonad.mk' (Code Ω) (fun c => bind_done c) (fun _ _ => rfl) (fun c f g => bind_assoc c f g)

end Code

/-- What surrounds running code: how its state answers an operation and takes a log record. -/
structure Host (Ω σ : Type) where
  perform : Ω → σ → Answer × σ
  log : Record → σ → σ

/-- What answers code about helpers: their names, and what the dispatcher prints. -/
structure Dispatcher (σ : Type) where
  names : List String
  dispatch : Value → String → List Value → σ → String × σ

def Dispatcher.none {σ : Type} : Dispatcher σ := ⟨[], fun _ _ _ s => ("", s)⟩

/-- Runs code in a state. The outcome is `none` when the code panics; what it did before stays. -/
def Code.run {Ω α σ : Type} (host : Host Ω σ) (helpers : Dispatcher σ) :
    Code Ω α → σ → Option α × σ
  | .done a, s => (some a, s)
  | .panic, s => (none, s)
  | .log r next, s => next.run host helpers (host.log r s)
  | .perform op next, s =>
    let (answer, s) := host.perform op s
    (next answer).run host helpers s
  | .names next, s => (next helpers.names).run host helpers s
  | .dispatch this name args next, s =>
    let (text, s) := helpers.dispatch this name args s
    (next text).run host helpers s

theorem Code.run_bind {Ω α β σ : Type} (host : Host Ω σ) (helpers : Dispatcher σ)
    (c : Code Ω α) (f : α → Code Ω β) (s : σ) :
    (c.bind f).run host helpers s =
      match c.run host helpers s with
      | (some a, s) => (f a).run host helpers s
      | (none, s) => (none, s) := by
  induction c generalizing s with
  | done a => rfl
  | panic => rfl
  | log r next ih => simpa [Code.bind, Code.run] using ih _
  | perform op next ih => simpa [Code.bind, Code.run] using ih _ _
  | names next ih => simpa [Code.bind, Code.run] using ih _ _
  | dispatch this name args next ih => simpa [Code.bind, Code.run] using ih _ _

def Host.logging {Ω : Type} : Host Ω (List Record) := ⟨fun _ s => (.silent, s), fun r s => s ++ [r]⟩

end Stencil

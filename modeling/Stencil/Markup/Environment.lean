import Stencil.Entries
import Stencil.Value

/-!
The engine that compiles and renders sources, as a library uses it. What a source comes to is up to
the engine; all that a render does beside it is to call functions, and to go on with the texts that
they return.
-/

namespace Stencil.Markup

/-- A failure of the engine: its kind, and all that is told of it. -/
structure Failure where
  kind : String
  text : String
deriving DecidableEq, Repr

/-- A render as a tree of the calls of functions in it. Each argument is sent as the data that it
stands for, if it stands for any. -/
inductive Rendering (α : Type)
  | done (a : α)
  | call (name : String) (args : List (Option Value)) (next : String → Rendering α)

namespace Rendering

variable {α β γ : Type}

def bind : Rendering α → (α → Rendering β) → Rendering β
  | .done a, f => f a
  | .call name args next, f => .call name args fun s => (next s).bind f

instance : Monad Rendering where
  pure := .done
  bind := bind

theorem bind_done (c : Rendering α) : c.bind .done = c := by
  induction c with
  | done a => rfl
  | call name args next ih => simp [bind, ih]

theorem bind_assoc (c : Rendering α) (f : α → Rendering β) (g : β → Rendering γ) :
    (c.bind f).bind g = c.bind fun a => (f a).bind g := by
  induction c with
  | done a => rfl
  | call name args next ih => simp [bind, ih]

instance : LawfulMonad Rendering :=
  LawfulMonad.mk' Rendering (fun c => bind_done c) (fun _ _ => rfl) (fun c f g => bind_assoc c f g)

end Rendering

/-- What a template is rendered from: the sources by name, the names of the functions that are
registered, its own name, and the context. -/
structure Scene where
  sources : Entries String
  functions : List String
  name : String
  context : Value

/-- A template after it was rendered, with the blocks that it has then. -/
structure Captured where
  text : String
  blocks : List String
  renderBlock : String → Rendering (Except Failure String)

structure Environment where
  compile : (name source : String) → Except Failure Unit
  render : Scene → Rendering (Except Failure String)
  capture : Scene → Rendering (Except Failure Captured)

/-- Renders a template, or one of its blocks after the whole template. -/
def Environment.renderPart (env : Environment) (scene : Scene) (block : Option String) :
    Rendering (Except Failure String) :=
  match block with
  | none => env.render scene
  | some block => (env.capture scene).bind fun
    | .ok captured => captured.renderBlock block
    | .error f => .done (.error f)

end Stencil.Markup

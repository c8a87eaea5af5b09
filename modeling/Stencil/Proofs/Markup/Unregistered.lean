import Stencil.Markup.Environment

/-!
# Functions that are not registered

What an engine is expected to do about them (`Environment.FailsUnknown`): a call of a function that
is not registered is a failure, and until it is reached the render goes as it does with the function
(`Rendering.Until`).
-/

namespace Stencil.Markup

variable {α α' β β' ε : Type}

/-- Two renders go the same way until the second one calls a function that is unknown to the first
one, which fails there. Up to that they end in the same failure, or in results that are related. -/
inductive Rendering.Until (unknown : String → Prop) (R : α → β → Prop) :
    Rendering (Except ε α) → Rendering (Except ε β) → Prop
  | failed (f : ε) : Until unknown R (.done (.error f)) (.done (.error f))
  | done {a : α} {b : β} (h : R a b) : Until unknown R (.done (.ok a)) (.done (.ok b))
  | call {name : String} {args : List (Option Value)} {next : String → Rendering (Except ε α)}
      {next' : String → Rendering (Except ε β)} (known : ¬ unknown name)
      (h : ∀ s, Until unknown R (next s) (next' s)) :
      Until unknown R (.call name args next) (.call name args next')
  | called {name : String} (f : ε) (args : List (Option Value))
      (next : String → Rendering (Except ε β)) (h : unknown name) :
      Until unknown R (.done (.error f)) (.call name args next)

theorem Rendering.Until.mono {unknown : String → Prop} {R S : α → β → Prop}
    {c : Rendering (Except ε α)} {c' : Rendering (Except ε β)} (h : c.Until unknown R c')
    (weaker : ∀ a b, R a b → S a b) : c.Until unknown S c' := by
  induction h with
  | failed f => exact .failed f
  | done h => exact .done (weaker _ _ h)
  | call known _ ih => exact .call known ih
  | called f args next h => exact .called f args next h

/-- What follows a failure is a failure, so nothing is called behind the first unknown function. -/
theorem Rendering.Until.bind {δ : Type} {unknown : String → Prop} {R : α → β → Prop}
    {S : α' → β' → Prop} {c : Rendering (Except ε α)} {c' : Rendering (Except ε β)}
    (h : c.Until unknown R c') {g : Except ε α → Rendering (Except δ α')}
    {g' : Except ε β → Rendering (Except δ β')}
    (failing : ∀ f, ∃ f', g (.error f) = .done (.error f') ∧ g' (.error f) = .done (.error f'))
    (next : ∀ a b, R a b → (g (.ok a)).Until unknown S (g' (.ok b))) :
    (c.bind g).Until unknown S (c'.bind g') := by
  induction h with
  | failed f =>
    obtain ⟨f', hf, hf'⟩ := failing f
    simpa only [Rendering.bind, hf, hf'] using .failed f'
  | done h => exact next _ _ h
  | call known _ ih => exact .call known ih
  | called f args rest h =>
    obtain ⟨f', hf, -⟩ := failing f
    simpa only [Rendering.bind, hf] using .called f' args _ h

def Scene.register (scene : Scene) (more : List String) : Scene :=
  { scene with functions := scene.functions ++ more }

def Captured.Until (unknown : String → Prop) (c c' : Captured) : Prop :=
  ∀ block, (c.renderBlock block).Until unknown Eq (c'.renderBlock block)

/-- Unknown functions are failures. This is expected of sources that do nothing with a name but
call it, if it is no name of the engine's own and no variable. Which sources these are, and which
names, is up to the engine. -/
structure Environment.FailsUnknown (env : Environment) (own : String → Prop)
    (onlyCall : Entries String → String → Prop) : Prop where
  render : ∀ {scene name}, ¬ own name → onlyCall scene.sources name →
    scene.context.field? name = none → name ∉ scene.functions →
    (env.render scene).Until (· = name) Eq (env.render (scene.register [name]))
  capture : ∀ {scene name}, ¬ own name → onlyCall scene.sources name →
    scene.context.field? name = none → name ∉ scene.functions →
    (env.capture scene).Until (· = name) (Captured.Until (· = name))
      (env.capture (scene.register [name]))

theorem Environment.FailsUnknown.renderPart {env : Environment} {own : String → Prop}
    {onlyCall : Entries String → String → Prop} (h : env.FailsUnknown own onlyCall) (scene : Scene)
    {name : String} (hown : ¬ own name) (only : onlyCall scene.sources name)
    (unbound : scene.context.field? name = none) (unregistered : name ∉ scene.functions)
    (block : Option String) :
    (env.renderPart scene block).Until (· = name) Eq
      (env.renderPart (scene.register [name]) block) := by
  cases block with
  | none => exact h.render hown only unbound unregistered
  | some block =>
    exact (h.capture hown only unbound unregistered).bind (fun f => ⟨f, rfl, rfl⟩)
      fun _ _ captured => captured block

end Stencil.Markup

import Stencil.Markup.Declared
import Stencil.Markup.Library
import Stencil.Renderer

/-!
A library as a loader. A source is compiled when it is first asked for, so that one that does not
compile fails to load; all else that goes wrong in it shows only when it is rendered, and prints
nothing.
-/

namespace Stencil.Markup

variable {Ω : Type}

/-- A render as code: its functions are helpers, run by the dispatcher with the context as their
receiver. What stands for no data is sent as null. -/
def Rendering.code {α : Type} (context : Value) : Rendering α → Code Ω α
  | .done a => .done a
  | .call name args next =>
    .dispatch context name (args.map (·.getD .null)) fun s => (next s).code context

namespace Library

/-- The body of a template, or of one of its blocks. All helpers are registered as functions. A
failure is logged, and leaves null. -/
def bodyOf (l : Library) (name : String) (block : Option String) (context : Value) :
    Code Ω Value :=
  .names fun functions =>
    ((l.settings.renderPart ⟨l.sources, functions, name, context⟩ block).code context).bind fun
      | .ok text => .done (.string text)
      | .error f => .log (.engineFailed name f) (.done .null)

/-- The template of a source: its blocks are those that the text of the source shows. -/
def template (l : Library) (name source : String) : Template Ω :=
  (Declared.blockNames source).foldl
    (fun whole block => whole.withBlock block (.ofBody (l.bodyOf name (some block))))
    (.ofBody (l.bodyOf name none))

def load (l : Library) (name : String) : Code Ω (Outcome (Template Ω)) :=
  match l.source? name with
  | none => .log (.noSource name) (.done .nothing)
  | some source =>
    match l.settings.compile name source with
    | .ok _ => .done (.template (l.template name source))
    | .error f => .done (.failed f.text)

def loader (l : Library) : Loader Ω where
  load _ name := (l.load name).bind fun outcome => .done ⟨.future ⟨outcome, none⟩, none⟩

end Library
end Stencil.Markup

import Stencil.Helper

/-!
Compiled templates: a body that turns a context into a value, and named blocks, each a template of
its own.
-/

namespace Stencil

inductive Template (Ω : Type)
  | mk (body : Value → Code Ω Value) (blocks : List (String × Template Ω))

namespace Template

variable {Ω σ : Type}

instance : Inhabited (Template Ω) := ⟨.mk (fun _ => .done .null) []⟩

def body : Template Ω → Value → Code Ω Value
  | .mk body _ => body

def blocks : Template Ω → Entries (Template Ω)
  | .mk _ blocks => blocks

def ofBody (body : Value → Code Ω Value) : Template Ω := .mk body []

def withBlock (t : Template Ω) (name : String) (block : Template Ω) : Template Ω :=
  .mk t.body (t.blocks.insert name block)

def block? (t : Template Ω) (name : String) : Option (Template Ω) := t.blocks.get? name

def blockNames (t : Template Ω) : List String := t.blocks.keys

def inspect (t : Template Ω) : String :=
  "CompiledTemplate \x7b blocks: " ++ Text.inspectAll t.blockNames ++ ", .. \x7d"

def call (host : Host Ω σ) (helpers : HelperTable Ω) (t : Template Ω) (context : Value) (s : σ) :
    Option Value × σ :=
  (t.body context).run host (helpers.dispatcher host) s

/-- The text that a template prints in a context; `none` when it panics. -/
def run (host : Host Ω σ) (helpers : HelperTable Ω) (t : Template Ω) (context : Value) (s : σ) :
    Option String × σ :=
  match t.call host helpers context s with
  | (some v, s) => (some v.guard.text, s)
  | (none, s) => (none, s)

end Template
end Stencil

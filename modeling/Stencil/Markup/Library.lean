import Stencil.Markup.Environment

/-!
Template sources by name, with the engine that compiles them.
-/

namespace Stencil.Markup

structure Library where
  /-- The engine, with all that is set for it. -/
  settings : Environment
  sources : Entries String := []

namespace Library

/-- Names are kept with slashes for backslashes. -/
def normalize (name : String) : String :=
  String.ofList (name.toList.map fun c => if c = '\\' then '/' else c)

def add (l : Library) (name source : String) : Library :=
  { l with sources := l.sources.insert (normalize name) source }

def source? (l : Library) (name : String) : Option String := l.sources.get? name

end Library
end Stencil.Markup

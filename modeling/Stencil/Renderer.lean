import Stencil.Cache
import Stencil.Config
import Stencil.Loads
import Stencil.Template
import Stencil.Value.Inspect

/-!
What one renderer holds: helpers, global data, a loader and the cache of the loads it asked for.
-/

namespace Stencil

/-- What the future of a load does in each poll. It may find the result of the load. -/
abbrev Work (Ω : Type) := Code Ω (Option (LoadResult (Template Ω)))

/-- What a loader hands over: how the load is to end, and the work of its future if it has any. -/
structure Handover (Ω : Type) where
  plan : Plan (Template Ω)
  work : Option (Work Ω) := none

/-- Loads templates by name. Loading is code; it is told how often the name was asked for before
under the loader's counter. -/
structure Loader (Ω : Type) where
  counter : Option String := none
  load : Nat → String → Code Ω (Handover Ω)

structure Renderer (Ω : Type) where
  helpers : HelperTable Ω := {}
  globals : Context := []
  loader : Option (Loader Ω) := none
  cache : Cache Nat := {}
  policy : CachePolicy := .evictOnError

namespace Renderer

variable {Ω : Type}

def ofConfig (c : Config) : Renderer Ω where
  helpers :=
    if c.escapeHelper then HelperTable.empty.register Helper.escapeName Helper.escape else .empty
  globals := c.globals
  policy := c.cachePolicy

def registerHelper (r : Renderer Ω) (name : String) (helper : Helper Ω) : Renderer Ω :=
  { r with helpers := r.helpers.register name helper }

def setGlobal (r : Renderer Ω) (key : String) (v : Value) : Renderer Ω :=
  { r with globals := r.globals.insert key v }

def addGlobals (r : Renderer Ω) (data : Option Value) : Context :=
  match data with
  | some (.object entries) => r.globals.overlay entries
  | _ => r.globals

def registerLoader (r : Renderer Ω) (loader : Loader Ω) : Renderer Ω :=
  { r with loader := some loader }

def hasLoader (r : Renderer Ω) : Bool := r.loader.isSome

def isCached (r : Renderer Ω) (name : String) : Bool := r.cache.contains name

def flush (r : Renderer Ω) : Renderer Ω := { r with cache := r.cache.clear }

def inspect (r : Renderer Ω) : String :=
  "Runtime \x7b helpers: " ++ r.helpers.inspect ++
    ", globals: " ++ Value.inspectContext r.globals ++
    ", has_loader: " ++ (if r.hasLoader then "true" else "false") ++
    ", cache: " ++ r.cache.inspect ++ ", cache_policy: " ++ r.policy.inspect ++ " \x7d"

end Renderer
end Stencil

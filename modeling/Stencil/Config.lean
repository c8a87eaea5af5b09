import Stencil.Cache
import Stencil.Value

/-!
The settings that a renderer is made from.
-/

namespace Stencil

structure Config where
  escapeHelper : Bool := true
  cachePolicy : CachePolicy := .evictOnError
  globals : Context := []
deriving Repr

namespace Config

def extensions : List String := ["json", "yaml", "yml"]

def policies : List (String × CachePolicy) :=
  [("evict_on_error", .evictOnError), ("retain", .retain)]

structure Given where
  escapeHelper : Option Bool := none
  cachePolicy : Option CachePolicy := none
  globals : Option Context := none

def Given.complete (g : Given) : Config where
  escapeHelper := g.escapeHelper.getD true
  cachePolicy := g.cachePolicy.getD .evictOnError
  globals := g.globals.getD []

end Config
end Stencil

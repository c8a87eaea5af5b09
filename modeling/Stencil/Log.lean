import Stencil.Error
import Stencil.Markup.Environment

/-!
The records that running leaves in the log.
-/

namespace Stencil

inductive Level
  | debug
  | warn
  | error
deriving DecidableEq, Repr

def Level.label : Level → String
  | .debug => "DEBUG"
  | .warn => "WARN"
  | .error => "ERROR"

inductive Record
  | flushing (count : Nat)
  | servedFromCache (template : String)
  | loading (template : String)
  | evicted (template : String)
  | nothingLoaded (template : String)
  | missingBlock (template block : String)
  | noSource (template : String)
  | templatePanicked (template : String)
  | helperFailed (helper : String) (error : HelperError)
  | helperPanicked (helper : String)
  | engineFailed (template : String) (failure : Markup.Failure)
  | taskFailed (error : Error)
deriving DecidableEq, Repr

namespace Record

def level : Record → Level
  | .templatePanicked _ | .helperFailed _ _ | .helperPanicked _ | .engineFailed _ _ => .warn
  | .taskFailed _ => .error
  | _ => .debug

def message : Record → String
  | .flushing count => "Flushing " ++ toString count ++ " cached template(s)"
  | .servedFromCache template => "Template '" ++ template ++ "' served from cache"
  | .loading template => "Loading template '" ++ template ++ "'"
  | .evicted template => "Evicted failed load of '" ++ template ++ "'"
  | .nothingLoaded template => "Loader returned no template for '" ++ template ++ "'"
  | .missingBlock template block => "Template '" ++ template ++ "' has no block '" ++ block ++ "'"
  | .noSource template => "No MiniJinja source for '" ++ template ++ "'"
  | .templatePanicked template => "Template '" ++ template ++ "' panicked while rendering"
  | .helperFailed helper error => "Helper '" ++ helper ++ "' failed: " ++ error.text
  | .helperPanicked helper => "Helper '" ++ helper ++ "' panicked"
  | .engineFailed template failure =>
    "MiniJinja render error in '" ++ template ++ "': " ++ failure.text
  | .taskFailed error => error.message

def line (r : Record) : String := r.level.label ++ " " ++ r.message

end Record
end Stencil

import Stencil.Code
import Stencil.Html
import Stencil.Value.Text

/-!
Helpers, the tables that hold them, and the dispatcher that templates call them through. The
dispatcher never fails: an unknown name, an error, a panic and a result that does not count as true
all print nothing.
-/

namespace Stencil

/-- A helper takes its receiver and its arguments. It is handed no helper table. -/
abbrev Helper (Ω : Type) := Value → List Value → Code Ω (Except HelperError Value)

/-- Helpers by name, in the order of first registration; the last registration of a name wins. -/
structure HelperTable (Ω : Type) where
  entries : Entries (Helper Ω) := []

namespace HelperTable

variable {Ω σ : Type}

def empty : HelperTable Ω := ⟨[]⟩

def register (t : HelperTable Ω) (name : String) (helper : Helper Ω) : HelperTable Ω :=
  ⟨t.entries.insert name helper⟩

def get? (t : HelperTable Ω) (name : String) : Option (Helper Ω) := t.entries.get? name

def contains (t : HelperTable Ω) (name : String) : Bool := t.entries.contains name

def names (t : HelperTable Ω) : List String := t.entries.keys

def size (t : HelperTable Ω) : Nat := t.entries.length

def isEmpty (t : HelperTable Ω) : Bool := t.entries.isEmpty

def inspect (t : HelperTable Ω) : String :=
  "HelperTable \x7b helpers: " ++ Text.inspectAll t.names ++ " \x7d"

inductive Ending
  | value (v : Value)
  | error (e : HelperError)
  | panic

def call (host : Host Ω σ) (helper : Helper Ω) (this : Value) (args : List Value) (s : σ) :
    Ending × σ :=
  match (helper this args).run host .none s with
  | (some (.ok v), s) => (.value v, s)
  | (some (.error e), s) => (.error e, s)
  | (none, s) => (.panic, s)

/-- What the dispatcher prints. A failure and a panic are logged. -/
def dispatch (host : Host Ω σ) (t : HelperTable Ω) (this : Value) (name : String)
    (args : List Value) (s : σ) : String × σ :=
  match t.get? name with
  | none => ("", s)
  | some helper =>
    match call host helper this args s with
    | (.value v, s) => (if v.isTruthy then v.text else "", s)
    | (.error e, s) => ("", host.log (.helperFailed name e) s)
    | (.panic, s) => ("", host.log (.helperPanicked name) s)

def dispatcher (host : Host Ω σ) (t : HelperTable Ω) : Dispatcher σ :=
  ⟨t.names, t.dispatch host⟩

end HelperTable

namespace Helper

def escapeName : String := "__escape"

/-- Escapes the first argument. A missing or null argument gives nothing; any other one that does
not count as true gives its text. -/
def escape {Ω : Type} : Helper Ω := fun _ args =>
  .done (.ok (.string (match args with
    | [] => ""
    | .null :: _ => ""
    | v :: _ => if v.isTruthy then Html.escape v.text else v.text)))

end Helper
end Stencil

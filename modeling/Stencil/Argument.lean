import Stencil.Value.Inspect

/-!
The loosely typed arguments of a parse call: each of its three places may be left out or hold a
block name, data or a callback. `κ` is the type of callbacks.
-/

namespace Stencil

inductive Argument (κ : Type)
  | absent
  | block (name : String)
  | data (v : Value)
  | callback (k : κ)

structure Arguments (κ : Type) where
  block : Argument κ := .absent
  data : Argument κ := .absent
  callback : Argument κ := .absent

variable {κ : Type}

namespace Argument

def ofOption (name : Option String) : Argument κ :=
  match name with
  | some name => .block name
  | none => .absent

def inspect : Argument κ → String
  | .absent => "None"
  | .block name => "Block(" ++ Text.inspect name ++ ")"
  | .data v => "Data(" ++ v.inspect ++ ")"
  | .callback _ => "Callback(..)"

def data? : Argument κ → Option Value
  | .data v => some v
  | _ => none

def callback? : Argument κ → Option κ
  | .callback k => some k
  | _ => none

end Argument

namespace Arguments

/-- Data and a callback may each stand one place to the left, if the last place is left out. -/
def shift : Arguments κ → Arguments κ
  | ⟨.data v, .callback k, .absent⟩ => ⟨.absent, .data v, .callback k⟩
  | args => args

def notCallable : String := "callback must be a function"

end Arguments
end Stencil

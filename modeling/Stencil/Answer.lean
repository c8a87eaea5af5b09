import Stencil.Error
import Stencil.Value

/-!
What an operation of a session gives back.
-/

namespace Stencil

inductive Answer
  | done
  | renderer (handle : Nat)
  | failed (error : Error)
  | panicked
  | names (names : List String)
  | hasLoader (b : Bool)
  | cached (b : Bool)
  | inspected (text : String)
  | context (c : Context)
  | output (text : String)
  | calls (count : Nat)
  | started
  | pending
  | unknown
  | dropped (b : Bool)
  | released (count : Nat)
  | silent

def Answer.ofResult : Except Error String → Answer
  | .ok text => .output text
  | .error e => .failed e

end Stencil

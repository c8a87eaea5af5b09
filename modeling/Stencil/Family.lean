import Stencil.Entries

/-!
Things that hold others by name and are copied from one another. A copy starts with what its source
held and then goes its own way: what is put into one member shows in no other.
-/

namespace Stencil

abbrev Family (τ : Type) := List τ

namespace Family

variable {τ α : Type}

inductive Change (α : Type)
  | register (member : Nat) (name : String) (a : α)
  | copy (member : Nat)

/-- A copy takes the next number. Changes to a member that does not exist do nothing. -/
def change (put : τ → String → α → τ) (f : Family τ) : Change α → Family τ
  | .register member name a => List.modify f member fun t => put t name a
  | .copy member =>
    match f[member]? with
    | some t => f ++ [t]
    | none => f

def changeAll (put : τ → String → α → τ) (f : Family τ) (changes : List (Change α)) : Family τ :=
  changes.foldl (change put) f

end Family
end Stencil

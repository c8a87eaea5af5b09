/-!
Powers of two and ten, and the whole numbers that a word of some number of bits holds.
-/

namespace Stencil

def twoTo (n : Nat) : Nat := Nat.pow 2 n

def tenTo (n : Nat) : Nat := Nat.pow 10 n

def fitsUnsigned (bits : Nat) (i : Int) : Bool := 0 ≤ i && i < twoTo bits

@[simp] theorem fitsUnsigned_iff {bits : Nat} {i : Int} :
    fitsUnsigned bits i = true ↔ 0 ≤ i ∧ i < twoTo bits := by
  simp [fitsUnsigned]

def fitsSigned (bits : Nat) (i : Int) : Bool :=
  -(twoTo (bits - 1) : Int) ≤ i && i < twoTo (bits - 1)

@[simp] theorem fitsSigned_iff {bits : Nat} {i : Int} :
    fitsSigned bits i = true ↔ -(twoTo (bits - 1) : Int) ≤ i ∧ i < twoTo (bits - 1) := by
  simp [fitsSigned]

end Stencil

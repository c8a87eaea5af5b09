/-!
Sets of characters as ranges of code points.
-/

namespace Stencil.Text

/-- Ranges with both ends included, in ascending order. -/
abbrev CharSet := List (Nat × Nat)

namespace CharSet

def has (set : CharSet) (c : Char) : Bool :=
  set.any fun (low, high) => low ≤ c.toNat && c.toNat ≤ high

end CharSet

end Stencil.Text

import Stencil.Family
import Stencil.Helper

/-!
Helper tables that are copied from one another.
-/

namespace Stencil

abbrev HelperFamily (Ω : Type) := Family (HelperTable Ω)

namespace HelperFamily

variable {Ω : Type}

def change (f : HelperFamily Ω) (c : Family.Change (Helper Ω)) : HelperFamily Ω :=
  Family.change HelperTable.register f c

def initial : HelperFamily Ω := [.empty]

end HelperFamily
end Stencil

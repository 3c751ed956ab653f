/-!
This module contains sets of code points given as lists of closed ranges.
-/

namespace PageDispatch
namespace Ranges

def contains (ranges : List (Nat × Nat)) (c : Char) : Bool :=
  ranges.any fun (first, last) => first ≤ c.toNat && c.toNat ≤ last

end Ranges
end PageDispatch

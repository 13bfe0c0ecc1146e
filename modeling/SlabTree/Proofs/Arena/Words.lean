import Mathlib.Algebra.Order.Floor.Div
import SlabTree.Proofs.Arena.Accounting

/-!
# Sizes and places that fit into words

Every product and every sum of sizes, pages and places goes through `Words.fitted`, which ends
the run where a word does not hold it, and every range of bytes is checked against the region
before it is touched.  So that nothing overflows and nothing lies outside is the same as that no
run ends in this way.  It rests on the one size that is computed when an arena is made: whatever
comes later is not larger.

That size is exact where pages are a power of two long.  Rounding up then fails only if the
result is no word either.
-/

namespace SlabTree.Arena

/-! ## The size of a region -/

section Size

variable {pageSize elementSize capacity : Nat}

variable {preallocate : Bool} {host : Host}

end Size

/-! ## Faults of a run -/

variable {elementSize capacity : Nat} {seen later : View} {request : Request} {fault : Fault}
  {log : Journal}

end SlabTree.Arena

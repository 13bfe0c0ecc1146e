import SlabTree.Slot

/-!
# Faults

A fault ends the run: the program was about to touch what is not there, or found
its own structure broken.  Answers that a caller is meant to handle are not
faults but refusals.
-/

namespace SlabTree

/-- Why a run had to stop. -/
inductive Fault
  /-- A slot was used that is not allocated, with `live` slots allocated. -/
  | notLive (slot : Slot) (live : Nat)
  /-- A copied range does not lie inside an element of `size` bytes. -/
  | rangeExceedsElement (start stop size : Nat)
  /-- Cached heights at `slot` no longer describe a balanced tree. -/
  | corrupt (slot : Slot) (balance : Int)
  /-- A height or a balance came out that 32 bits do not hold. -/
  | heightOverflow (height : Int)
  /-- A size, a number of pages or a place came out that no word holds. -/
  | overflow
  /-- A range does not lie inside the buffer that it was cut from. -/
  | outOfBounds
  /-- A range of bytes does not lie inside a region of `size` bytes. -/
  | outsideRegion (offset length size : Nat)
  /-- A range of bytes lies inside its region but not in committed pages. -/
  | uncommitted (offset length : Nat)
  /-- A walk along links never ends. -/
  | endless
  deriving DecidableEq, Repr

/-- The text that goes with a fault, where there is one. -/
def Fault.message : Fault → Option String
  | .notLive slot live => some s!"slot {slot} is not allocated (live slots: {live})"
  | .rangeExceedsElement start stop size =>
      some s!"range {start}..{stop} exceeds element size {size}"
  | .corrupt slot balance =>
      some s!"AVL structural corruption at slot {slot}: balance factor {balance}"
  | .outsideRegion offset length size =>
      some s!"range [{offset}, +{length}) outside region of {size} bytes"
  | .heightOverflow _ | .overflow | .outOfBounds | .uncommitted _ _ | .endless => none

end SlabTree

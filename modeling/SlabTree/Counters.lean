/-!
# Operation counters

Five counts of what a tree has done since it was made.  They are 64-bit words
and wrap around.
-/

namespace SlabTree

/-- What a tree has done since it was made. -/
structure Counters where
  /-- Records inserted. -/
  inserts : UInt64 := 0
  /-- Records removed. -/
  removes : UInt64 := 0
  /-- Imbalances mended by one rotation. -/
  singleRotations : UInt64 := 0
  /-- Imbalances mended by two rotations. -/
  doubleRotations : UInt64 := 0
  /-- Removals that moved the last slot into the vacated one. -/
  relocations : UInt64 := 0
  deriving DecidableEq, Repr

namespace Counters

/-- The five counts, in the order in which they are listed. -/
def toList (c : Counters) : List UInt64 :=
  [c.inserts, c.removes, c.singleRotations, c.doubleRotations, c.relocations]

/-- One record more has been inserted. -/
def countInsert (c : Counters) : Counters :=
  { c with inserts := c.inserts + 1 }

/-- One record more has been removed. -/
def countRemove (c : Counters) : Counters :=
  { c with removes := c.removes + 1 }

/-- One imbalance more has been mended by one rotation. -/
def countSingle (c : Counters) : Counters :=
  { c with singleRotations := c.singleRotations + 1 }

/-- One imbalance more has been mended by two rotations. -/
def countDouble (c : Counters) : Counters :=
  { c with doubleRotations := c.doubleRotations + 1 }

/-- One node more has moved to another slot. -/
def countRelocation (c : Counters) : Counters :=
  { c with relocations := c.relocations + 1 }

end Counters

end SlabTree

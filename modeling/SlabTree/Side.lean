/-!
# Sides

A node has a left and a right side, and whatever is said of one side holds of
the other in the mirror.
-/

namespace SlabTree

/-- The two sides of a node. -/
inductive Side
  | left
  | right
  deriving DecidableEq, Repr

/-- The other side. -/
def Side.flip : Side → Side
  | .left => .right
  | .right => .left

@[simp]
theorem Side.flip_flip (side : Side) : side.flip.flip = side := by
  cases side <;> rfl

end SlabTree

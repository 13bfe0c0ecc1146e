import SlabTree.Tree.Search

/-!
# Rebalancing

After a change below a slot, the walk from there to the root refreshes each
cached height and rotates where the two sides differ by two.  The two kinds of
rotation are one definition, taken from either side.

The walk trusts cached heights.  Where they cannot be those of a balanced tree,
it stops with a fault and leaves the tree as it is.  It computes with heights as
signed numbers of 32 bits, and a result that these do not hold stops it too.
-/

namespace SlabTree

namespace Tree

/-- A height or a balance that 32 bits hold with its sign; any other ends the run. -/
def fitted (height : Int) : Except Fault Int :=
  if -0x80000000 ≤ height ∧ height < 0x80000000 then
    .ok height
  else
    .error (.heightOverflow height)

/-- What a child adds to the height of its parent, by its cached height. -/
def contribution (tree : Tree) : Option Slot → Except Fault Int
  | none => .ok 0
  | some slot => do
    let height ← tree.cachedHeight slot
    fitted (height + 1)

/-- How much taller the right side of a slot is than its left, by cached heights. -/
def balance (tree : Tree) (slot : Slot) : Except Fault Int := do
  let header ← tree.header slot
  let right ← tree.contribution header.right
  let left ← tree.contribution header.left
  fitted (right - left)

/-- The height that a slot has by the cached heights of its children. -/
def heightFromChildren (tree : Tree) (slot : Slot) : Except Fault Int := do
  let header ← tree.header slot
  let left ← tree.contribution header.left
  let right ← tree.contribution header.right
  .ok (max left right)

/-- Refreshes the cached height of a slot from its children's. -/
def updateHeight (slot : Slot) : Action Tree Unit := do
  let height ← Action.read (·.heightFromChildren slot)
  setCachedHeight slot height

/-- Ends the run because the heights at a slot are those of no balanced tree. -/
def corrupt {α : Type} (slot : Slot) (balance : Int) : Action Tree α := do
  Action.log (.corruption slot balance)
  Action.fail (.corrupt slot balance)

/-- The child on a side, which has to be there. -/
def requireChild (slot : Slot) (side : Side) : Action Tree Slot := do
  match ← Action.read (·.child slot side) with
  | some child => pure child
  | none =>
      let balance ← Action.read (·.balance slot)
      corrupt slot balance

/-- Points whatever referred to `old` from above, a parent or the root, at
`new`: the parent's left link if that is the one, otherwise its right link.  That
the right link is then the one is not checked; where the links of a tree are in
order, it is. -/
def replaceChild (parent : Option Slot) (old : Slot) (new : Option Slot) :
    Action Tree Unit := do
  match parent with
  | none => setRoot new
  | some parent =>
      let left ← Action.read (·.child parent .left)
      setChild parent (if left = some old then .left else .right) new

/-- Points the parent link of a slot, if there is one, elsewhere. -/
def adopt (child : Option Slot) (parent : Option Slot) : Action Tree Unit :=
  match child with
  | none => pure ()
  | some child => setLink child .parent parent

/-- Lifts the child on a side of `slot` above it, and answers that child. -/
def rotate (side : Side) (slot : Slot) : Action Tree Slot := do
  let parent ← Action.read (·.link slot .parent)
  let pivot ← requireChild slot side
  let inner ← Action.read (·.child pivot side.flip)
  setChild slot side inner
  adopt inner (some slot)
  setChild pivot side.flip (some slot)
  setLink slot .parent (some pivot)
  setLink pivot .parent parent
  replaceChild parent slot (some pivot)
  updateHeight slot
  updateHeight pivot
  Action.log (.rotate side slot pivot)
  pure pivot

/-- How much taller a slot is on a side than on the other, given its balance. -/
def tilt (side : Side) (balance : Int) : Int :=
  match side with
  | .left => -balance
  | .right => balance

/-- Rotates a slot whose child on `side` is too tall, and answers the slot that
takes its place.  A child that leans the other way is straightened first. -/
def mend (side : Side) (slot : Slot) : Action Tree Slot := do
  let child ← requireChild slot side
  let balance ← Action.read (·.balance child)
  if 0 ≤ tilt side balance then
    updateCounters Counters.countSingle
    rotate side slot
  else
    updateCounters Counters.countDouble
    let _ ← rotate side.flip child
    rotate side slot

/-- Refreshes a slot and rotates it if need be; answers the slot that then stands
in its place. -/
def settle (slot : Slot) : Action Tree Slot := do
  updateHeight slot
  let balance ← Action.read (·.balance slot)
  if -1 ≤ balance ∧ balance ≤ 1 then
    pure slot
  else if balance = -2 then
    mend .left slot
  else if balance = 2 then
    mend .right slot
  else
    corrupt slot balance

/-- Restores heights and balance from a slot up to the root, in at most `steps` steps. -/
def rebalanceWithin : (steps : Nat) → Option Slot → Action Tree Unit
  | _, none => pure ()
  | 0, some _ => Action.fail .endless
  | steps + 1, some slot => do
    let top ← settle slot
    let parent ← Action.read (·.link top .parent)
    rebalanceWithin steps parent

/-- Restores heights and balance from a slot up to the root. -/
def rebalance (slot : Option Slot) : Action Tree Unit :=
  rebalanceWithin walkLimit slot

end Tree

end SlabTree

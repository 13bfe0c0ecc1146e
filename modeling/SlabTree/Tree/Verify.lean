import SlabTree.Tree.Search

/-!
# Verifying a tree

The check of everything a tree is supposed to be: links, cached heights,
balance, order, and the number of nodes.  It never relies on what it checks.  It
looks at a slot only after finding it live, and it enters no more nodes than the
tree claims to hold, so that it ends on any damage.
-/

namespace SlabTree

/-- Something wrong with a tree. -/
inductive Issue
  | countDiffers (count live : Nat)
  | reachedDiffers (reached count : Nat)
  | outsideLivePrefix
  | tooManyReachable
  | wrongParent (stored actual : Option Slot)
  | keyNotGreater (previous : Slot)
  | wrongHeight (cached actual : Int)
  | outOfBalance (balance : Int)
  deriving DecidableEq, Repr

/-- The words for an issue. -/
def Issue.message : Issue → String
  | .countDiffers count live => s!"node count {count} differs from live arena slots {live}"
  | .reachedDiffers reached count =>
      s!"reached {reached} nodes from the root, expected {count}"
  | .outsideLivePrefix => "link points outside the live slot prefix"
  | .tooManyReachable => "more nodes reachable than stored; cycle suspected"
  | .wrongParent stored actual =>
      s!"parent link {Slot.describe stored} does not match actual parent " ++
        Slot.describe actual
  | .keyNotGreater previous => s!"key not greater than slot {previous}"
  | .wrongHeight cached actual => s!"cached height {cached} but subtree height {actual}"
  | .outOfBalance balance => s!"balance factor {balance} out of range"

/-- An issue and the slot where it was found, when it concerns one. -/
structure Finding where
  slot : Option Slot
  issue : Issue
  deriving DecidableEq, Repr

/-- What a verification came to. -/
structure Report where
  /-- Whether nothing was found. -/
  success : Bool
  /-- The number of nodes entered. -/
  nodesReached : Nat
  /-- The height of the root as counted from the leaves, `-1` for no root. -/
  height : Int
  /-- What was found, oldest first, up to a limit. -/
  findings : List Finding
  /-- Whether something was found beyond the limit. -/
  truncated : Bool
  /-- How often the order was asked to compare. -/
  comparisons : Nat
  /-- How many links were followed, the root among them. -/
  linksFollowed : Nat
  deriving DecidableEq, Repr

/-- How far a verification has come. -/
structure Inspection where
  /-- The number of nodes entered. -/
  reached : Nat := 0
  /-- The node before the current one, in order. -/
  previous : Option Slot := none
  /-- What was found, newest first. -/
  findings : List Finding := []
  /-- Whether something was found beyond the limit. -/
  truncated : Bool := false
  /-- How often the order was asked to compare. -/
  comparisons : Nat := 0
  /-- How many links were followed, the root among them. -/
  linksFollowed : Nat := 0

namespace Inspection

/-- The largest number of findings that are kept. -/
def findingLimit : Nat := 32

/-- The inspection with one more finding, or marked as cut short. -/
def add (inspection : Inspection) (slot : Option Slot) (issue : Issue) : Inspection :=
  if findingLimit ≤ inspection.findings.length then
    { inspection with truncated := true }
  else
    { inspection with findings := ⟨slot, issue⟩ :: inspection.findings }

/-- The inspection with one more link followed. -/
def follow (inspection : Inspection) : Inspection :=
  { inspection with linksFollowed := inspection.linksFollowed + 1 }

/-- Adds a finding where something is wrong. -/
def addIf (inspection : Inspection) (wrong : Bool) (slot : Option Slot) (issue : Issue) :
    Inspection :=
  if wrong then inspection.add slot issue else inspection

end Inspection

namespace Tree

/-- Compares a slot with the node before it and makes it the node before the
next one. -/
def inspectKey (tree : Tree) (order : KeyOrder) (slot : Slot) (inspection : Inspection) :
    Except Fault Inspection := do
  match inspection.previous with
  | none => .ok { inspection with previous := some slot }
  | some previous =>
      let before ← tree.payload previous
      let stored ← tree.payload slot
      let wrong := order.compare inspection.comparisons before stored ≠ .lt
      let inspection := inspection.addIf wrong (some slot) (.keyNotGreater previous)
      .ok { inspection with
        previous := some slot
        comparisons := inspection.comparisons + 1 }

/-- Notes what is wrong with the cached height and the balance of a slot whose
sides are as tall as given. -/
def inspectShape (slot : Slot) (cached left right : Int) (inspection : Inspection) :
    Inspection :=
  let height := max left right
  let balance := right - left
  (inspection.addIf (cached ≠ height) (some slot) (.wrongHeight cached height)).addIf
    (balance < -1 ∨ 1 < balance) (some slot) (.outOfBalance balance)

/-- Inspects the nodes at and below a slot, left side first, in nested steps of at
most `fuel`.  Answers what the slot adds to the height of its parent. -/
def inspectWithin (tree : Tree) (order : KeyOrder) :
    Nat → Option Slot → Option Slot → Inspection → Except Fault (Int × Inspection)
  | _, none, _, inspection => .ok (0, inspection)
  | 0, some _, _, _ => .error .endless
  | fuel + 1, some slot, parent, inspection =>
    let followed := inspection.follow
    if tree.arena.live ≤ slot then
      .ok (0, followed.add (some slot) .outsideLivePrefix)
    else if tree.count ≤ followed.reached then
      .ok (0, followed.add (some slot) .tooManyReachable)
    else do
      let header ← tree.header slot
      let entered := { followed with reached := followed.reached + 1 }
      let entered := entered.addIf (header.parent ≠ parent) (some slot)
        (.wrongParent header.parent parent)
      let (left, afterLeft) ← inspectWithin tree order fuel header.left (some slot) entered
      let afterKey ← tree.inspectKey order slot afterLeft
      let (right, afterRight) ← inspectWithin tree order fuel header.right (some slot) afterKey
      .ok (max left right + 1, inspectShape slot header.height left right afterRight)

/-- Checks everything a tree is supposed to be. -/
def verify (tree : Tree) (order : KeyOrder) : Except Fault Report := do
  let start := Inspection.addIf {} (tree.count ≠ tree.arena.live) none
    (.countDiffers tree.count tree.arena.live)
  let (contribution, walked) ← tree.inspectWithin order (tree.count + 1) tree.root none start
  let final := walked.addIf (walked.reached ≠ tree.count) none
    (.reachedDiffers walked.reached tree.count)
  .ok
    { success := final.findings.isEmpty && !final.truncated
      nodesReached := final.reached
      height := contribution - 1
      findings := final.findings.reverse
      truncated := final.truncated
      comparisons := final.comparisons
      linksFollowed := final.linksFollowed }

/-- Verifies the tree and notes the comparisons that it took. -/
def audit (order : KeyOrder) : Action Tree Report := do
  let report ← Action.read (·.verify order)
  Action.noteComparisons report.comparisons
  pure report

end Tree

end SlabTree

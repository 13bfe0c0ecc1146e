import SlabTree.Tree.Rebalance

/-!
# Inserting and removing

An insertion hangs a leaf where the search for the record left the tree.  A
removal unlinks the node itself, or, when it has two children, moves the record
of its successor into it and unlinks the successor.  Only the last slot of an
arena can be freed, so the node in the last slot moves into the slot that was
vacated.

A refused operation has changed nothing but, if it was the host that refused, the
number of committed pages.

Each operation is given once with a number of steps that bounds each of its
walks, and once with more steps than a walk in any tree takes.
-/

namespace SlabTree

namespace Tree

/-! ## Insertion -/

/-- Points the link at which a search left the tree at `slot`: the root if the
tree had none. -/
def attach (place : Option (Slot × Side)) (slot : Slot) : Action Tree Unit :=
  match place with
  | none => setRoot (some slot)
  | some (parent, side) => setChild parent side (some slot)

/-- Puts a record into a new slot and hangs it where a search left the tree. -/
def insertAt (steps : Nat) (place : Option (Slot × Side)) (slot : Slot) (record : Bytes) :
    Action Tree Unit := do
  let parent := place.map (·.1)
  setHeader slot (Header.leaf parent)
  setPayload slot record
  attach place slot
  updateCount (· + 1)
  updateCounters Counters.countInsert
  rebalanceWithin steps parent

/-- What a search for the place of a record comes to: the slot of an equal
record, or the place where the record belongs. -/
def placeForWithin (tree : Tree) (steps : Nat) (order : KeyOrder) (record : Bytes) :
    Lookup (Option Slot × Option (Slot × Side)) :=
  .ofPath (tree.pathWithin steps order .exact record) fun visits =>
    (Path.found visits, Path.exit visits)

/-- Inserts a record of exactly the tree's record size, in walks of at most `steps` steps. -/
def insertWithin (steps : Nat) (order : KeyOrder) (record : Bytes) :
    Action Tree (Except Refusal Unit) := do
  let options ← Action.view (·.options)
  if record.length ≠ options.nodeSize then
    pure (.error (.invalidArgument .recordLength))
  else
    let (equal, place) ← consult (·.placeForWithin steps order record)
    if equal.isSome then
      pure (.error .duplicateKey)
    else
      let count ← Action.view (·.count)
      if count = options.maxNodes then
        Action.log (.capacityExceeded options.maxNodes)
        pure (.error .capacityExceeded)
      else
        match ← onArena Arena.allocate with
        | .error .arenaFull => pure (.error .capacityExceeded)
        | .error refusal => pure (.error refusal)
        | .ok slot =>
            insertAt steps place slot record
            pure (.ok ())

/-- Inserts a record of exactly the tree's record size. -/
def insert (order : KeyOrder) (record : Bytes) : Action Tree (Except Refusal Unit) :=
  insertWithin walkLimit order record

/-! ## Removal -/

/-- Takes a node with at most one child out of the tree; the child takes its
place. -/
def unlink (steps : Nat) (slot : Slot) : Action Tree Unit := do
  let header ← Action.read (·.header slot)
  let child := header.left.or header.right
  adopt child header.parent
  replaceChild header.parent slot child
  rebalanceWithin steps header.parent

/-- Moves the node in slot `source` to slot `target`, and tells its neighbours. -/
def relocate (source target : Slot) : Action Tree Unit := do
  onArena (Arena.copySlot source target)
  let moved ← Action.read (·.header target)
  replaceChild moved.parent source (some target)
  adopt moved.left (some target)
  adopt moved.right (some target)
  Action.log (.relocate source target)
  updateCounters Counters.countRelocation

/-- Gives up the slot of a node that is no longer linked.  Only the last slot can
be freed, so what is there moves into the vacated one first. -/
def releaseSlot (vacated : Slot) : Action Tree (Except Refusal Unit) := do
  match ← Action.view (·.arena.last?) with
  | none => pure (.error .arenaEmpty)
  | some last =>
      if last = vacated then
        pure ()
      else
        relocate last vacated
      onArena Arena.free

/-- Makes the node in `slot` one that can be unlinked, and answers the slot to
unlink: with two children, it takes over the record of its successor, which is
unlinked instead. -/
def prepareRemoval (steps : Nat) (slot : Slot) : Action Tree Slot := do
  let header ← Action.read (·.header slot)
  match header.left, header.right with
  | some _, some right =>
      let successor ← Action.read (·.outermostWithin .left steps right)
      let nodeSize ← Action.view (·.options.nodeSize)
      onArena (Arena.copyRange successor slot Header.size (Header.size + nodeSize))
      pure successor
  | _, _ => pure slot

/-- Removes the record in a slot.  In a tree whose links are in order the slots that
are live afterwards are as many as the records; this is not checked. -/
def removeAt (steps : Nat) (slot : Slot) : Action Tree (Except Refusal Unit) := do
  let vacated ← prepareRemoval steps slot
  unlink steps vacated
  match ← releaseSlot vacated with
  | .error refusal => pure (.error refusal)
  | .ok () =>
      updateCount (· - 1)
      updateCounters Counters.countRemove
      pure (.ok ())

/-- Removes the record whose key equals `key`, in walks of at most `steps` steps. -/
def removeWithin (steps : Nat) (order : KeyOrder) (key : Bytes) :
    Action Tree (Except Refusal Unit) := do
  match ← Action.view (·.checkKey key) with
  | .error refusal => pure (.error refusal)
  | .ok () =>
      if (← Action.view (·.count)) = 0 then
        pure (.error .emptyTree)
      else
        match ← consult (·.locateWithin steps order key) with
        | none => pure (.error .notFound)
        | some slot => removeAt steps slot

/-- Removes the record whose key equals `key`. -/
def remove (order : KeyOrder) (key : Bytes) : Action Tree (Except Refusal Unit) :=
  removeWithin walkLimit order key

end Tree

end SlabTree

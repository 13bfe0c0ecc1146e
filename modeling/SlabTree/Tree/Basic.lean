import SlabTree.Arena
import SlabTree.Header
import SlabTree.KeyOrder
import SlabTree.Options

/-!
# Trees in an arena

A tree keeps one record per slot of an arena.  A slot holds a node: a header
with links to other slots, and the record as payload.  The tree itself knows
only its root, how many records it holds, and its counters; everything else is
read from the slots, and reading a slot that is not live is a fault.
-/

namespace SlabTree

/-- A balanced search tree of fixed-size records. -/
structure Tree where
  arena : Arena
  root : Option Slot
  /-- The number of records. -/
  count : Nat
  options : Options
  counters : Counters

/-- What a tree reports about its size. -/
structure TreeStats where
  liveCount : Nat
  physicalBytes : Nat
  virtualBytes : Nat
  deriving DecidableEq, Repr

namespace Tree

variable {α : Type}

/-- A new tree without records, or the reason why there is none. -/
def create (options : Options) (host : Host) : Except Refusal (Session Tree) := do
  options.validate
  let made ← Arena.create (Header.size + options.nodeSize) options.maxNodes
    options.preallocate host
  let tree : Tree :=
    { arena := made.state
      root := none
      count := 0
      options := options
      counters := {} }
  let event : Event := .create options.maxNodes options.nodeSize options.keySize
    options.preallocate made.state.virtualBytes
  .ok ⟨tree, { made.journal with events := made.journal.events.push event }⟩

/-- The memory that the tree uses. -/
def stats (tree : Tree) : TreeStats where
  liveCount := tree.count
  physicalBytes := tree.arena.physicalBytes
  virtualBytes := tree.arena.virtualBytes

/-- What is logged at the end of a tree's life. -/
def closing (tree : Tree) : List Event :=
  .close tree.count tree.arena.physicalBytes :: tree.arena.closing

/-- Logs the counters. -/
def logCounters : Action Tree Unit := do
  Action.log (.counters (← Action.view (·.counters)))

/-! ## Reading nodes -/

/-- The header of a slot. -/
def header (tree : Tree) (slot : Slot) : Except Fault Header :=
  (tree.arena.read slot 0 Header.size).map Header.ofBytes

/-- A link of a slot. -/
def link (tree : Tree) (slot : Slot) (link : Link) : Except Fault (Option Slot) :=
  (tree.arena.read slot link.offset (link.offset + Header.fieldSize)).map Header.decodeLink

/-- The child of a slot on a side. -/
def child (tree : Tree) (slot : Slot) (side : Side) : Except Fault (Option Slot) :=
  tree.link slot side.link

/-- The cached height of a slot. -/
def cachedHeight (tree : Tree) (slot : Slot) : Except Fault Int :=
  (tree.arena.read slot Header.heightOffset (Header.heightOffset + Header.fieldSize)).map
    Header.decodeHeight

/-- The record in a slot. -/
def payload (tree : Tree) (slot : Slot) : Except Fault Bytes :=
  tree.arena.read slot Header.size tree.arena.elementSize

/-- The cached height of the root, read as a word; none for a tree without a
root. -/
def height (tree : Tree) : Except Fault (Option Nat) :=
  match tree.root with
  | none => .ok none
  | some root => (tree.header root).map fun header => some (header.height % 0x100000000).toNat

/-- The headers and records of all live slots, in slot order. -/
def nodes (tree : Tree) : Except Fault (List (Header × Bytes)) :=
  (List.range tree.arena.live).mapM fun slot => do
    let header ← tree.header slot
    let payload ← tree.payload slot
    .ok (header, payload)

/-! ## Writing nodes -/

/-- Runs an action of the arena on the tree's arena. -/
@[inline]
def onArena (action : Action Arena α) : Action Tree α := fun session =>
  match session with
  | ⟨⟨arena, root, count, options, counters⟩, journal⟩ =>
    match action ⟨arena, journal⟩ with
    | .ok answer ⟨arena, journal⟩ =>
        .ok answer ⟨⟨arena, root, count, options, counters⟩, journal⟩
    | .error fault ⟨arena, journal⟩ =>
        .error fault ⟨⟨arena, root, count, options, counters⟩, journal⟩

/-- Points a link of a slot elsewhere. -/
def setLink (slot : Slot) (link : Link) (target : Option Slot) : Action Tree Unit :=
  onArena (Arena.write slot link.offset (Header.encodeLink target))

/-- Points the child link on a side elsewhere. -/
def setChild (slot : Slot) (side : Side) (target : Option Slot) : Action Tree Unit :=
  setLink slot side.link target

/-- Sets the cached height of a slot. -/
def setCachedHeight (slot : Slot) (height : Int) : Action Tree Unit :=
  onArena (Arena.write slot Header.heightOffset (Header.encodeHeight height))

/-- Writes a header into a slot. -/
def setHeader (slot : Slot) (header : Header) : Action Tree Unit :=
  onArena (Arena.write slot 0 header.encode)

/-- Writes over the leading bytes of the record in a slot. -/
def setPayload (slot : Slot) (data : Bytes) : Action Tree Unit :=
  onArena (Arena.write slot Header.size data)

/-- Sets the root. -/
def setRoot (root : Option Slot) : Action Tree Unit :=
  Action.update fun
    | ⟨arena, _, count, options, counters⟩ => ⟨arena, root, count, options, counters⟩

/-- Sets the number of records. -/
def setCount (count : Nat) : Action Tree Unit :=
  Action.update fun
    | ⟨arena, root, _, options, counters⟩ => ⟨arena, root, count, options, counters⟩

/-- Changes the number of records. -/
def updateCount (f : Nat → Nat) : Action Tree Unit :=
  Action.update fun
    | ⟨arena, root, count, options, counters⟩ => ⟨arena, root, f count, options, counters⟩

/-- Changes the counters. -/
def updateCounters (f : Counters → Counters) : Action Tree Unit :=
  Action.update fun
    | ⟨arena, root, count, options, counters⟩ => ⟨arena, root, count, options, f counters⟩

end Tree

end SlabTree

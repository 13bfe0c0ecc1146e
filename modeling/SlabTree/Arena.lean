import SlabTree.Refusal
import SlabTree.Region
import SlabTree.Session

/-!
# Arenas

An arena hands out slots of one fixed size from a reserved region.  Slots are
numbered densely from zero and only the last one can be freed, so the live slots
are always a prefix of the region.  A lazy arena asks for the pages that this
prefix reaches and hands the others back; a preallocated one commits everything
when it is made and never gives a page back.

A page that the host does not take back stays committed.  A page that it does not
back is the reason why a slot is not handed out; pages that it backed before stay
committed then, for the next attempt.
-/

namespace SlabTree

/-- Slots of a fixed size in a reserved region. -/
structure Arena where
  region : Region
  /-- Bytes per slot. -/
  elementSize : Nat
  /-- The largest number of slots. -/
  capacity : Nat
  /-- The number of slots allocated: the slots below it are live. -/
  live : Nat
  /-- Whether every page was committed when the arena was made. -/
  preallocated : Bool
  /-- Pages committed so far, as a word that wraps around. -/
  pageCommits : UInt64
  /-- Pages given back so far, as a word that wraps around. -/
  pageReleases : UInt64

/-- What an arena reports about its use of memory. -/
structure ArenaStats where
  slots : Nat
  physicalBytes : Nat
  virtualBytes : Nat
  pageCommits : UInt64
  pageReleases : UInt64
  deriving DecidableEq, Repr

namespace Arena

/-- The size of the region for `capacity` slots, in whole pages; none if a word
cannot hold it. -/
def regionSize? (pageSize elementSize capacity : Nat) : Option Nat :=
  let bytes := elementSize * capacity
  if Words.limit ≤ bytes ∨ Words.limit ≤ bytes + (pageSize - 1) then
    none
  else
    some ((bytes + (pageSize - 1)) / pageSize * pageSize)

/-- The region of a new arena, with its pages committed if `preallocate`. -/
def newRegion (size : Nat) (preallocate : Bool) (host : Host) : Except HostError Region := do
  let region ← Region.reserve size host
  if preallocate then region.prefault else .ok region

/-- A new arena without live slots, or the reason why there is none. -/
def create (elementSize capacity : Nat) (preallocate : Bool) (host : Host) :
    Except Refusal (Session Arena) :=
  if elementSize = 0 then
    .error (.config .zeroElementSize)
  else if capacity = 0 then
    .error (.config .zeroCapacity)
  else
    match regionSize? host.pageSize elementSize capacity with
    | none => .error (.config .addressSpaceOverflow)
    | some size =>
      match newRegion size preallocate host with
      | .error error => .error (.host error)
      | .ok region =>
        let arena : Arena :=
          { region := region
            elementSize := elementSize
            capacity := capacity
            live := 0
            preallocated := preallocate
            pageCommits := UInt64.ofNat region.committedPages
            pageReleases := 0 }
        .ok ⟨arena, { events := #[.reserve elementSize capacity size preallocate] }⟩

/-! ## Looking at an arena -/

/-- The size of a page. -/
def pageSize (arena : Arena) : Nat :=
  arena.region.host.pageSize

/-- The bytes backed by memory. -/
def physicalBytes (arena : Arena) : Nat :=
  arena.region.committed

/-- The bytes reserved. -/
def virtualBytes (arena : Arena) : Nat :=
  arena.region.size

/-- The memory in use and what it took to get there. -/
def stats (arena : Arena) : ArenaStats where
  slots := arena.live
  physicalBytes := arena.physicalBytes
  virtualBytes := arena.virtualBytes
  pageCommits := arena.pageCommits
  pageReleases := arena.pageReleases

/-- The slot that would be freed next. -/
def last? (arena : Arena) : Option Slot :=
  if arena.live = 0 then none else some (arena.live - 1)

/-- A slot may be used while it is allocated. -/
def checkLive (arena : Arena) (slot : Slot) : Except Fault Unit :=
  if slot < arena.live then .ok () else .error (.notLive slot arena.live)

/-- The place of a slot in the region. -/
def offset (arena : Arena) (slot : Slot) : Nat :=
  slot * arena.elementSize

/-- The place of a slot that is live and whose bytes are there. -/
def locate (arena : Arena) (slot : Slot) : Except Fault Nat := do
  arena.checkLive slot
  let place ← Words.fitted (arena.offset slot)
  arena.region.check place arena.elementSize
  .ok place

/-- The place of byte `start` of a slot that has bytes `start` to `stop`. -/
def check (arena : Arena) (slot : Slot) (start stop : Nat) : Except Fault Nat := do
  let place ← arena.locate slot
  if start ≤ stop ∧ stop ≤ arena.elementSize then .ok (place + start) else .error .outOfBounds

/-- Bytes `start` to `stop` of a slot. -/
def read (arena : Arena) (slot : Slot) (start stop : Nat) : Except Fault Bytes := do
  let place ← arena.check slot start stop
  .ok (arena.region.peek place (stop - start))

/-- All bytes of a slot. -/
def slot (arena : Arena) (slot : Slot) : Except Fault Bytes :=
  arena.read slot 0 arena.elementSize

/-! ## Changing an arena -/

/-- The arena with another region. -/
@[inline]
def mapRegion (arena : Arena) (f : Region → Region) : Arena :=
  match arena with
  | ⟨region, elementSize, capacity, live, preallocated, commits, releases⟩ =>
    ⟨f region, elementSize, capacity, live, preallocated, commits, releases⟩

/-- Writes `data` over the bytes of a slot from `start` on. -/
def write (slot : Slot) (start : Nat) (data : Bytes) : Action Arena Unit := do
  let place ← Action.read (·.check slot start (start + data.length))
  Action.update (·.mapRegion (·.poke place data))

/-- Writes one byte over all bytes of a slot. -/
def fill (slot : Slot) (byte : UInt8) : Action Arena Unit := do
  let size ← Action.view (·.elementSize)
  write slot 0 (List.replicate size byte)

/-- The place of byte `start` of a slot, from which on `length` bytes are to be touched. -/
def span (arena : Arena) (slot : Slot) (start length : Nat) : Except Fault Nat := do
  let base ← Words.fitted (arena.offset slot)
  let place ← Words.fitted (base + start)
  arena.region.check place length
  .ok place

/-- Copies bytes `start` to `stop` of one slot over the same bytes of another. -/
def copyRange (source target : Slot) (start stop : Nat) : Action Arena Unit := do
  Action.read (·.checkLive source)
  Action.read (·.checkLive target)
  let size ← Action.view (·.elementSize)
  if start ≤ stop ∧ stop ≤ size then
    if source = target ∨ start = stop then
      pure ()
    else
      let here ← Action.read (·.span source start (stop - start))
      let there ← Action.read (·.span target start (stop - start))
      let data ← Action.view (·.region.peek here (stop - start))
      Action.update (·.mapRegion (·.poke there data))
  else
    Action.fail (.rangeExceedsElement start stop size)

/-- Copies one slot over another. -/
def copySlot (source target : Slot) : Action Arena Unit := do
  let size ← Action.view (·.elementSize)
  copyRange source target 0 size

/-- The number of pages that the first `slots` slots reach into. -/
def pagesNeeded (arena : Arena) (slots : Nat) : Except Fault Nat := do
  let bytes ← Words.fitted (slots * arena.elementSize)
  Words.fitted (Words.divCeil bytes arena.pageSize)

/-- A page about which the host is asked must lie inside the region. -/
def checkPage (arena : Arena) (page : Nat) : Except Fault Unit := do
  let place ← Words.fitted (page * arena.pageSize)
  arena.region.checkInside place arena.pageSize

/-- Asks the host to back the next page. -/
def commitPage : Action Arena (Except Refusal Unit) := do
  let page ← Action.view (·.region.committedPages)
  Action.read (·.checkPage page)
  match ← Action.view (·.region.commitError) with
  | some error =>
      Action.update (·.mapRegion Region.refused)
      pure (.error (.host error))
  | none =>
      Action.log (.commitPage page)
      let _ ← Action.read fun _ => Words.fitted (page + 1)
      Action.update fun
        | ⟨region, elementSize, capacity, live, preallocated, commits, releases⟩ =>
          ⟨region.commitPage, elementSize, capacity, live, preallocated, commits + 1, releases⟩
      pure (.ok ())

/-- Asks the host to back the next `n` pages, one by one, until it refuses. -/
def commitPages : Nat → Action Arena (Except Refusal Unit)
  | 0 => pure (.ok ())
  | n + 1 => do
      match ← commitPage with
      | .error refusal => pure (.error refusal)
      | .ok () => commitPages n

/-- Asks the host to take the last committed page back; answers whether it did. -/
def releasePage : Action Arena Bool := do
  let page ← Action.view (·.region.committedPages - 1)
  Action.read (·.checkPage page)
  match ← Action.view (·.region.releaseError) with
  | some error =>
      Action.log (.releasePageFailed page error)
      Action.update (·.mapRegion Region.refused)
      pure false
  | none =>
      Action.log (.releasePage page)
      Action.update fun
        | ⟨region, elementSize, capacity, live, preallocated, commits, releases⟩ =>
          ⟨region.releasePage, elementSize, capacity, live, preallocated, commits, releases + 1⟩
      pure true

/-- Asks the host to take the last `n` committed pages back, from the end on, until it
refuses. -/
def releasePages : Nat → Action Arena Unit
  | 0 => pure ()
  | n + 1 => do
      if ← releasePage then
        releasePages n
      else
        pure ()

/-- Sets the number of live slots. -/
def setLive (n : Nat) : Action Arena Unit :=
  Action.update fun
    | ⟨region, elementSize, capacity, _, preallocated, commits, releases⟩ =>
      ⟨region, elementSize, capacity, n, preallocated, commits, releases⟩

/-- Hands out the next slot, zeroed, after committing the pages that it newly
reaches. -/
def allocate : Action Arena (Except Refusal Slot) := do
  let slot ← Action.view (·.live)
  let capacity ← Action.view (·.capacity)
  if slot = capacity then
    pure (.error .arenaFull)
  else
    let next ← Action.read fun _ => Words.fitted (slot + 1)
    let needed ← Action.read (·.pagesNeeded next)
    let committed ← Action.view (·.region.committedPages)
    match ← commitPages (needed - committed) with
    | .error refusal => pure (.error refusal)
    | .ok () =>
        setLive next
        fill slot 0
        pure (.ok slot)

/-- Frees the last slot; a lazy arena then hands back the pages that no live
slot reaches.  That the host does not take one of them back is no reason to
refuse. -/
def free : Action Arena (Except Refusal Unit) := do
  let live ← Action.view (·.live)
  if live = 0 then
    pure (.error .arenaEmpty)
  else
    setLive (live - 1)
    let preallocated ← Action.view (·.preallocated)
    if preallocated then
      pure (.ok ())
    else
      let needed ← Action.read (·.pagesNeeded (live - 1))
      let committed ← Action.view (·.region.committedPages)
      releasePages (committed - needed)
      pure (.ok ())

/-- What is logged when an arena is given up. -/
def closing (arena : Arena) : List Event :=
  match arena.region.host.closeError with
  | none => []
  | some error => [.releaseRegionFailed arena.virtualBytes error]

end Arena

end SlabTree

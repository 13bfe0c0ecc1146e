import SlabTree.Counters
import SlabTree.Host
import SlabTree.Side
import SlabTree.Slot

/-!
# Events

The log of a run: what was reserved, committed, rotated, moved.  An event has a
level, a name and fields in a fixed order.
-/

namespace SlabTree

/-- How loud an event is. -/
inductive Level
  | trace
  | debug
  | info
  | warn
  | error
  deriving DecidableEq, Repr

/-- The name of a level. -/
def Level.name : Level → String
  | .trace => "TRACE"
  | .debug => "DEBUG"
  | .info => "INFO"
  | .warn => "WARN"
  | .error => "ERROR"

/-- Something worth logging. -/
inductive Event
  | reserve (elementSize maxElements virtualBytes : Nat) (preallocate : Bool)
  | commitPage (page : Nat)
  | releasePage (page : Nat)
  /-- The host did not take a page back. -/
  | releasePageFailed (page : Nat) (error : HostError)
  /-- The host did not take the addresses of a region back. -/
  | releaseRegionFailed (size : Nat) (error : HostError)
  | create (maxNodes nodeSize keySize : Nat) (preallocate : Bool) (virtualBytes : Nat)
  | close (liveCount physicalBytes : Nat)
  | capacityExceeded (maxNodes : Nat)
  /-- The child `pivot` on the side `lifted` of `slot` was lifted above it. -/
  | rotate (lifted : Side) (slot pivot : Slot)
  | relocate (source target : Slot)
  | corruption (slot : Slot) (balance : Int)
  | counters (counters : Counters)
  deriving DecidableEq, Repr

/-- The value of a field of an event. -/
inductive FieldValue
  | number (value : Int)
  | flag (value : Bool)
  | text (value : String)
  deriving DecidableEq, Repr

namespace Event

/-- How loud an event is. -/
def level : Event → Level
  | .commitPage _ | .releasePage _ | .rotate .. | .relocate .. => .trace
  | .reserve .. | .capacityExceeded _ => .debug
  | .create .. | .close .. | .counters _ => .info
  | .releasePageFailed .. | .releaseRegionFailed .. => .warn
  | .corruption .. => .error

/-- The name of an event.  Lifting the left child turns the tree to the right. -/
def name : Event → String
  | .reserve .. => "arena.reserve"
  | .commitPage _ => "arena.commit_page"
  | .releasePage _ => "arena.release_page"
  | .releasePageFailed .. => "arena.release_page_failed"
  | .releaseRegionFailed .. => "arena.release_region_failed"
  | .create .. => "avl.create"
  | .close .. => "avl.drop"
  | .capacityExceeded _ => "avl.insert.capacity_exceeded"
  | .rotate .left .. => "avl.rotate_right"
  | .rotate .right .. => "avl.rotate_left"
  | .relocate .. => "avl.relocate"
  | .corruption .. => "avl.structural_corruption"
  | .counters _ => "avl counters snapshot"

/-- The channel of an event that has one of its own. -/
def target : Event → Option String
  | .counters _ => some "arbor::avl::stats"
  | _ => none

/-- The fields of an event, in order. -/
def fields : Event → List (String × FieldValue)
  | .reserve elementSize maxElements virtualBytes preallocate =>
      [("element_size", .number elementSize), ("max_elements", .number maxElements),
        ("virtual_bytes", .number virtualBytes), ("preallocate", .flag preallocate)]
  | .commitPage page => [("page", .number page)]
  | .releasePage page => [("page", .number page)]
  | .releasePageFailed page error => [("page", .number page), ("error", .text error.message)]
  | .releaseRegionFailed size error => [("len", .number size), ("error", .text error.message)]
  | .create maxNodes nodeSize keySize preallocate virtualBytes =>
      [("max_nodes", .number maxNodes), ("node_size", .number nodeSize),
        ("key_size", .number keySize), ("preallocate", .flag preallocate),
        ("virtual_bytes", .number virtualBytes)]
  | .close liveCount physicalBytes =>
      [("live_count", .number liveCount), ("physical_bytes", .number physicalBytes)]
  | .capacityExceeded maxNodes => [("max_nodes", .number maxNodes)]
  | .rotate _ slot pivot => [("slot", .number slot), ("pivot", .number pivot)]
  | .relocate source target => [("from", .number source), ("to", .number target)]
  | .corruption slot balance => [("slot", .number slot), ("balance", .number balance)]
  | .counters c =>
      [("inserts", .number c.inserts.toNat), ("removes", .number c.removes.toNat),
        ("single_rotations", .number c.singleRotations.toNat),
        ("double_rotations", .number c.doubleRotations.toNat),
        ("relocations", .number c.relocations.toNat)]

end Event

end SlabTree

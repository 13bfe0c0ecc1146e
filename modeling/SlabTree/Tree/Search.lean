import SlabTree.Tree.Basic

/-!
# Searching

Every search walks down from the root, comparing the probe with the record at
each slot and turning left or right by the outcome.  The path is kept as data:
which slots were visited, what was stored there, how the comparison came out,
and the fault that cut the path short, if any.  What a search answers is read off
its path, and what it cost is the length of the path.

Every walk gets a number of steps that it may take, and ends with a fault where
they run out.  Links that lead around in a circle need not keep a search for ever:
an order may answer differently when it is asked again.  So a search of few steps
that runs out of them says nothing about one of more steps, while an answer that
does come is the answer for any larger number of steps.
-/

namespace SlabTree

/-- One comparison made on the way down. -/
structure Visit where
  slot : Slot
  stored : Bytes
  outcome : Ordering

/-- The comparisons made on the way down, and why the way could not be finished. -/
structure Path where
  visits : List Visit
  fault : Option Fault

/-- Where to go after a comparison; none where the search is over. -/
abbrev Turn := Ordering → Option Side

namespace Turn

/-- Towards the probe, stopping at an equal record. -/
def exact : Turn
  | .lt => some .left
  | .eq => none
  | .gt => some .right

/-- Towards the smallest record above the probe. -/
def above : Turn
  | .lt => some .left
  | .eq | .gt => some .right

/-- Towards the largest record below the probe. -/
def below : Turn
  | .gt => some .right
  | .eq | .lt => some .left

end Turn

namespace Path

/-- The path that ends before its first comparison. -/
def stopped (fault : Option Fault) : Path := ⟨[], fault⟩

/-- The path with a comparison in front. -/
def cons (visit : Visit) (path : Path) : Path := ⟨visit :: path.visits, path.fault⟩

/-- What is read off the visits of a path that was finished. -/
def answer {α : Type} (path : Path) (f : List Visit → α) : Except Fault α :=
  match path.fault with
  | some fault => .error fault
  | none => .ok (f path.visits)

/-- The last slot at which the comparison came out as `outcome`. -/
def lastWith (outcome : Ordering) (visits : List Visit) : Option Slot :=
  ((visits.filter (·.outcome = outcome)).getLast?).map (·.slot)

/-- The slot at which the path ended with an equal record. -/
def found (visits : List Visit) : Option Slot :=
  match visits.getLast? with
  | some ⟨slot, _, .eq⟩ => some slot
  | _ => none

/-- The slot and the side at which the path left the tree; none in a tree
without a root. -/
def exit (visits : List Visit) : Option (Slot × Side) :=
  match visits.getLast? with
  | some ⟨slot, _, .lt⟩ => some (slot, .left)
  | some ⟨slot, _, .gt⟩ => some (slot, .right)
  | _ => none

end Path

/-- An answer that took comparisons to find. -/
structure Lookup (α : Type) where
  visits : List Visit
  result : Except Fault α

namespace Lookup

variable {α β : Type}

/-- An answer that took no comparison. -/
def immediate (answer : α) : Lookup α := ⟨[], .ok answer⟩

/-- The answer read off a path. -/
def ofPath (path : Path) (f : List Visit → α) : Lookup α := ⟨path.visits, path.answer f⟩

/-- Goes on with the answer, without further comparisons. -/
def andThen (lookup : Lookup α) (f : α → Except Fault β) : Lookup β :=
  ⟨lookup.visits, lookup.result.bind f⟩

end Lookup

namespace Tree

/-- No walk takes more steps than this where the links do not lead around in a circle. -/
def walkLimit : Nat := 0x100000000

/-- The path from a slot down, of at most `steps` visits, after `asked` others. -/
def pathFrom (tree : Tree) (order : KeyOrder) (turn : Turn) (probe : Bytes) :
    (asked steps : Nat) → Option Slot → Path
  | _, _, none => .stopped none
  | _, 0, some _ => .stopped (some .endless)
  | asked, steps + 1, some slot =>
    match tree.payload slot with
    | .error fault => .stopped (some fault)
    | .ok stored =>
      let outcome := order.compare asked probe stored
      .cons ⟨slot, stored, outcome⟩ <|
        match turn outcome with
        | none => .stopped none
        | some side =>
          match tree.child slot side with
          | .error fault => .stopped (some fault)
          | .ok next => pathFrom tree order turn probe (asked + 1) steps next

/-- The path from the root down, of at most `steps` visits. -/
def pathWithin (tree : Tree) (steps : Nat) (order : KeyOrder) (turn : Turn) (probe : Bytes) :
    Path :=
  tree.pathFrom order turn probe 0 steps tree.root

/-- The path from the root down. -/
def path (tree : Tree) (order : KeyOrder) (turn : Turn) (probe : Bytes) : Path :=
  tree.pathWithin walkLimit order turn probe

/-- The slot of the record equal to the probe, found in at most `steps` visits. -/
def locateWithin (tree : Tree) (steps : Nat) (order : KeyOrder) (probe : Bytes) :
    Lookup (Option Slot) :=
  .ofPath (tree.pathWithin steps order .exact probe) Path.found

/-- The slot of the record equal to the probe. -/
def locate (tree : Tree) (order : KeyOrder) (probe : Bytes) : Lookup (Option Slot) :=
  tree.locateWithin walkLimit order probe

/-- The slot of the smallest record above the probe. -/
def locateAbove (tree : Tree) (order : KeyOrder) (probe : Bytes) : Lookup (Option Slot) :=
  .ofPath (tree.path order .above probe) (Path.lastWith .lt)

/-- The slot of the largest record below the probe. -/
def locateBelow (tree : Tree) (order : KeyOrder) (probe : Bytes) : Lookup (Option Slot) :=
  .ofPath (tree.path order .below probe) (Path.lastWith .gt)

/-- The slot of the record equal to a probe of any length.  A probe too short
for the order ends the run in its first comparison. -/
def find (tree : Tree) (order : KeyOrder) (probe : Bytes) : Lookup (Option Slot) :=
  if order.reads ≤ probe.length then
    tree.locate order probe
  else
    match tree.root with
    | none => .immediate none
    | some root =>
      match tree.payload root with
      | .error fault => ⟨[], .error fault⟩
      | .ok stored => ⟨[⟨root, stored, order.compare 0 probe stored⟩], .error .outOfBounds⟩

/-! ## Following links -/

/-- The last slot reached by going to one side for at most `fuel` steps. -/
def outermostWithin (tree : Tree) (side : Side) : Nat → Slot → Except Fault Slot
  | 0, _ => .error .endless
  | fuel + 1, slot => do
    match ← tree.child slot side with
    | none => .ok slot
    | some next => outermostWithin tree side fuel next

/-- The last slot reached by going to one side. -/
def outermost (tree : Tree) (side : Side) (slot : Slot) : Except Fault Slot :=
  tree.outermostWithin side (tree.arena.live + 1) slot

/-- The first slot in order below a slot. -/
def leftmost (tree : Tree) (slot : Slot) : Except Fault Slot :=
  tree.outermost .left slot

/-- The last slot in order below a slot. -/
def rightmost (tree : Tree) (slot : Slot) : Except Fault Slot :=
  tree.outermost .right slot

/-- The first slot on the way up, starting at `parent`, that was reached from its
left, in at most `fuel` steps. -/
def climbWithin (tree : Tree) : Nat → Slot → Option Slot → Except Fault (Option Slot)
  | _, _, none => .ok none
  | 0, _, some _ => .error .endless
  | fuel + 1, child, some parent => do
    if (← tree.child parent .left) = some child then
      .ok (some parent)
    else
      climbWithin tree fuel parent (← tree.link parent .parent)

/-- The next slot in order, found through the links alone. -/
def successor (tree : Tree) (slot : Slot) : Except Fault (Option Slot) := do
  match ← tree.child slot .right with
  | some right => (tree.leftmost right).map some
  | none => tree.climbWithin (tree.arena.live + 1) slot (← tree.link slot .parent)

/-! ## Lookups by key -/

/-- A key may be looked up when it is as long as keys are. -/
def checkKey (tree : Tree) (key : Bytes) : Except Refusal Unit :=
  if key.length < tree.options.keySize then
    .error (.invalidArgument .shortKey)
  else
    .ok ()

/-- The record in the slot that a search came to, or that it found none. -/
def fetch (tree : Tree) : Option Slot → Except Fault (Except Refusal Bytes)
  | none => .ok (.error .notFound)
  | some slot => (tree.payload slot).map .ok

/-- The record in the slot that a search for a key comes to. -/
def recordFor (tree : Tree) (key : Bytes) (slot : Lookup (Option Slot)) :
    Lookup (Except Refusal Bytes) :=
  match tree.checkKey key with
  | .error refusal => .immediate (.error refusal)
  | .ok () => slot.andThen tree.fetch

/-- The record whose key equals `key`. -/
def get (tree : Tree) (order : KeyOrder) (key : Bytes) : Lookup (Except Refusal Bytes) :=
  tree.recordFor key (tree.locate order key)

/-- The smallest record whose key is above `key`. -/
def next (tree : Tree) (order : KeyOrder) (key : Bytes) : Lookup (Except Refusal Bytes) :=
  tree.recordFor key (tree.locateAbove order key)

/-- The largest record whose key is below `key`. -/
def prev (tree : Tree) (order : KeyOrder) (key : Bytes) : Lookup (Except Refusal Bytes) :=
  tree.recordFor key (tree.locateBelow order key)

/-- Whether a record with this key is stored; a short key is the key of none. -/
def contains (tree : Tree) (order : KeyOrder) (key : Bytes) : Lookup Bool :=
  if key.length < tree.options.keySize then
    .immediate false
  else
    (tree.locate order key).andThen fun slot => .ok slot.isSome

/-- The record at one end of the tree. -/
def extreme (tree : Tree) (side : Side) : Except Fault (Except Refusal Bytes) :=
  match tree.root with
  | none => .ok (.error .emptyTree)
  | some root => do
    let slot ← tree.outermost side root
    (tree.payload slot).map .ok

/-- The smallest record. -/
def first (tree : Tree) : Except Fault (Except Refusal Bytes) :=
  tree.extreme .left

/-- The largest record. -/
def last (tree : Tree) : Except Fault (Except Refusal Bytes) :=
  tree.extreme .right

/-! ## Lookups into a buffer -/

/-- The answer and the caller's buffer after it: a record is copied to the front
of the buffer, which must have room for one. -/
def copyOut (tree : Tree) (buffer : Bytes) (answer : Except Refusal Bytes) :
    Except Refusal Unit × Bytes :=
  match answer with
  | .error refusal => (.error refusal, buffer)
  | .ok record => (.ok (), record ++ buffer.drop tree.options.nodeSize)

/-- Copies the smallest record into a buffer. -/
def firstInto (tree : Tree) (buffer : Bytes) : Except Fault (Except Refusal Unit × Bytes) :=
  if buffer.length < tree.options.nodeSize then
    .ok (.error (.invalidArgument .shortOutput), buffer)
  else
    tree.first.map (tree.copyOut buffer)

/-- Copies the smallest record above `key` into a buffer. -/
def nextInto (tree : Tree) (order : KeyOrder) (key buffer : Bytes) :
    Lookup (Except Refusal Unit × Bytes) :=
  if buffer.length < tree.options.nodeSize then
    .immediate (.error (.invalidArgument .shortOutput), buffer)
  else
    (tree.next order key).andThen fun answer => .ok (tree.copyOut buffer answer)

/-! ## Lookups as actions -/

/-- Makes a lookup and notes its comparisons. -/
def consult {α : Type} (lookup : Tree → Lookup α) : Action Tree α := do
  let found ← Action.view lookup
  Action.noteComparisons found.visits.length
  Action.read fun _ => found.result

end Tree

end SlabTree

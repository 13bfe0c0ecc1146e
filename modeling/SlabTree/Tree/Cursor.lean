import SlabTree.Tree.Search

/-!
# Walking through a tree in order

A cursor holds the slot that comes next and how many records are still to come.
It moves along the links and stops when either runs out, so the number of
records it yields never exceeds the tree's count.
-/

namespace SlabTree

/-- A place in the walk through a tree. -/
structure Cursor where
  /-- The slot of the next record. -/
  upcoming : Option Slot
  /-- The number of records that may still be yielded. -/
  remaining : Nat
  deriving DecidableEq, Repr

namespace Cursor

/-- The least and the largest number of records still to come. -/
def sizeHint (cursor : Cursor) : Nat × Nat :=
  if cursor.upcoming.isNone then (0, 0) else (1, cursor.remaining)

/-- The next record and the cursor behind it. -/
def advance (tree : Tree) (cursor : Cursor) : Except Fault (Option Bytes × Cursor) :=
  match cursor.remaining, cursor.upcoming with
  | 0, _ => .ok (none, cursor)
  | _, none => .ok (none, cursor)
  | remaining + 1, some slot => do
      let upcoming ← tree.successor slot
      let record ← tree.payload slot
      .ok (some record, ⟨upcoming, remaining⟩)

/-- All records from a slot on, at most `remaining` of them. -/
def recordsFrom (tree : Tree) : Nat → Option Slot → Except Fault (List Bytes)
  | 0, _ => .ok []
  | _, none => .ok []
  | remaining + 1, some slot => do
      let upcoming ← tree.successor slot
      let record ← tree.payload slot
      let rest ← recordsFrom tree remaining upcoming
      .ok (record :: rest)

/-- Size hint and answer of each of the next `n` moves. -/
def moves (tree : Tree) : Nat → Cursor → Except Fault (List ((Nat × Nat) × Option Bytes))
  | 0, _ => .ok []
  | n + 1, cursor => do
      let (record, behind) ← cursor.advance tree
      let rest ← moves tree n behind
      .ok ((cursor.sizeHint, record) :: rest)

end Cursor

namespace Tree

/-- The cursor in front of the smallest record. -/
def cursor (tree : Tree) : Except Fault Cursor :=
  match tree.root with
  | none => .ok ⟨none, tree.count⟩
  | some root => (tree.leftmost root).map fun slot => ⟨some slot, tree.count⟩

/-- All records, in order. -/
def records (tree : Tree) : Except Fault (List Bytes) := do
  let cursor ← tree.cursor
  Cursor.recordsFrom tree cursor.remaining cursor.upcoming

end Tree

end SlabTree

import SlabTree.Shared.Work
import SlabTree.Tree.Update
import SlabTree.Tree.Verify

/-!
# Calls on shared trees

A shared tree can be called directly, without taking a guard first.  Each call is
a section of its own: the two that change the tree take the lock for themselves,
all others take it as readers.
-/

namespace SlabTree.Shared

/-- A call on a shared tree. -/
inductive Call
  | insert (record : Bytes)
  | remove (key : Bytes)
  | first
  | next (key : Bytes)
  | firstInto (buffer : Bytes)
  | nextInto (key buffer : Bytes)
  | stats
  | verify
  deriving DecidableEq, Repr

/-- What a call comes back with. -/
inductive Answer
  | changed (outcome : Except Refusal Unit)
  | record (outcome : Except Refusal Bytes)
  | copied (outcome : Except Refusal Unit × Bytes)
  | stats (stats : TreeStats)
  | report (report : Report)

/-- The section that a call is. -/
def Call.section (tree : Nat) : Call → Section (Except Fault Answer)
  | .insert record => .writing tree fun order => do pure (.changed (← Tree.insert order record))
  | .remove key => .writing tree fun order => do pure (.changed (← Tree.remove order key))
  | .first => .reading tree fun _ plain => plain.first.map .record
  | .next key => .reading tree fun order plain => (plain.next order key).result.map .record
  | .firstInto buffer => .reading tree fun _ plain => (plain.firstInto buffer).map .copied
  | .nextInto key buffer =>
      .reading tree fun order plain => (plain.nextInto order key buffer).result.map .copied
  | .stats => .reading tree fun _ plain => .ok (.stats plain.stats)
  | .verify => .reading tree fun order plain => (plain.verify order).map .report

end SlabTree.Shared

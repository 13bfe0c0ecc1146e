import SlabTree.Lock.Word
import SlabTree.Tree.Basic

/-!
# Work under guards

A thread works on shared trees in sections.  A section takes the lock of a tree,
which gives it a guard on that tree; it looks at the trees that it has guards on
and changes those that it has to itself; on the way it may take guards on more
trees, and what it saw in one tree may decide what it does to the next.  At its
end it gives all its guards up.  Other threads run between any two of its steps.

A thread that gives a guard up and goes on has begun another section.
-/

namespace SlabTree.Shared

open SlabTree.Lock (Mode)

/-- A tree, the order of its keys, and the lock that it is behind. -/
structure SharedTree where
  tree : Tree
  order : KeyOrder
  lock : Nat

/-- The tree that a lock is held for, and how it is held. -/
structure Guard where
  tree : Nat
  mode : Mode
  deriving DecidableEq, Repr

/-- What is still to be done in a section. -/
inductive Work (α : Type)
  /-- Nothing; the answer is known. -/
  | done (answer : α)
  /-- Takes a guard and goes on. -/
  | take (guard : Guard) (next : Work α)
  /-- Looks at a tree and goes on accordingly. -/
  | look (tree : Nat) (next : SharedTree → Work α)
  /-- Changes a tree and goes on. -/
  | change (tree : Nat) (f : Tree → Tree) (next : Work α)

/-- A section: the guard that it begins with, and the work under it. -/
structure Section (α : Type) where
  guard : Guard
  work : Work α

namespace Section

variable {α : Type}

/-- A section that does an action on one tree, which it has to itself.  The tree is
left as the action leaves it, also by one that faults. -/
def writing (tree : Nat) (action : KeyOrder → Action Tree α) : Section (Except Fault α) where
  guard := ⟨tree, .exclusive⟩
  work := .look tree fun shared =>
    match action shared.order ⟨shared.tree, {}⟩ with
    | .ok answer after => .change tree (fun _ => after.state) (.done (.ok answer))
    | .error fault after => .change tree (fun _ => after.state) (.done (.error fault))

/-- A section that asks one tree, which others may look at meanwhile. -/
def reading (tree : Nat) (query : KeyOrder → Tree → Except Fault α) :
    Section (Except Fault α) where
  guard := ⟨tree, .shared⟩
  work := .look tree fun shared => .done (query shared.order shared.tree)

end Section

end SlabTree.Shared

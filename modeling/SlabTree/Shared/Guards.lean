import SlabTree.Shared.Forest

/-!
# Guards on shared trees, under names

A forest whose guards are kept under names.  A section that would have to wait for
a guard that is kept is not begun.
-/

namespace SlabTree.Shared

/-- A guard and the thread of its lock that has it. -/
structure KeptGuard extends Guard where
  thread : Nat

/-- A forest and its named guards. -/
structure GuardedForest (α : Type) where
  forest : Forest α
  guards : List (String × KeptGuard) := []

namespace GuardedForest

variable {α β : Type}

/-- The forest without the guard of a name. -/
def dropGuard (state : GuardedForest α) (name : String) : GuardedForest α :=
  match state.guards.lookup name with
  | none => state
  | some guard =>
    let forest := match state.forest.lockOf? guard.tree with
      | none => state.forest
      | some system =>
          state.forest.setLockOf guard.tree (system.perform guard.thread .release)
    { forest := forest, guards := state.guards.filter fun entry => entry.1 ≠ name }

/-- Gives a guard up; answers whether there was one. -/
def drop (state : GuardedForest α) (name : String) : Bool × GuardedForest α :=
  ((state.guards.lookup name).isSome, state.dropGuard name)

/-- Tries to take the lock of a tree; the guard replaces a former one of its name. -/
def attempt (state : GuardedForest α) (guard : Guard) (name : String) :
    Bool × GuardedForest α :=
  let (forest, worker) := state.forest.hire []
  let thread := forest.seat worker 0
  match forest.lockOf? guard.tree with
  | none => (false, state)
  | some system =>
    let tried := system.perform thread (.acquire guard.mode .once)
    let forest := forest.setLockOf guard.tree tried
    if tried.point thread = .holding guard.mode then
      let freed := { state with forest := forest }.dropGuard name
      (true, { freed with guards := freed.guards ++ [(name, { guard with thread := thread })] })
    else
      (false, { state with forest := forest })

/-- Does a section with one guard; none if that would have to wait. -/
def call (state : GuardedForest α) (part : Section α) : Option (List α × GuardedForest α) :=
  if state.forest.wouldBlock part.guard then
    none
  else
    let (answers, forest) := state.forest.perform [[part]]
    some (answers, { state with forest := forest })

/-- Does an action on the tree of a guard; none if the guard is shared and the
action is one that changes the tree. -/
def under (state : GuardedForest α) (guard : Guard) (changes : Bool) (action : Action Tree β) :
    Option (Except Fault β × GuardedForest α) :=
  if changes && guard.mode = .shared then
    none
  else do
    let shared ← state.forest.tree? guard.tree
    let leaving (later : Tree) : GuardedForest α :=
      { state with forest := state.forest.modifyTree guard.tree fun _ => later }
    match action ⟨shared.tree, {}⟩ with
    | .ok answer after => some (.ok answer, leaving after.state)
    | .error fault after => some (.error fault, leaving after.state)

/-- Takes a tree out of the forest; none if a guard on it is kept. -/
def unwrap (state : GuardedForest α) (tree : Nat) : Option (SharedTree × GuardedForest α) :=
  if state.guards.any fun entry => entry.2.tree == tree then
    none
  else do
    let shared ← state.forest.tree? tree
    some (shared, { state with
      forest := { state.forest with trees := state.forest.trees.set tree none } })

end GuardedForest

end SlabTree.Shared

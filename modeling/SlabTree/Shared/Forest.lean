import SlabTree.Lock.System
import SlabTree.Shared.Work

/-!
# Trees shared between threads

A forest is a number of trees, each behind a lock, and the threads that work on
them.  Several trees may be behind the same lock.  A thread does one section
after the other, step by step, and its steps at a lock are those of the lock.  It
looks at a tree only while it has a guard on it, and changes it only while it has
the tree to itself.

A thread can have several guards, also on one lock, if they are shared.  To a lock,
each of them is a thread of its own.  So a thread that waits for one of its own guards
to go gets no further.
-/

namespace SlabTree.Shared

open SlabTree.Lock (System Snapshot)

/-- What a thread is about. -/
inductive Stage (α : Type)
  | idle
  /-- Taking a lock, with this much to do under its guard. -/
  | acquiring (guard : Guard) (next : Work α)
  /-- Inside, with this much left to do. -/
  | working (work : Work α)
  /-- Giving its guards up. -/
  | leaving

/-- A thread that works on the trees of a forest. -/
structure Worker (α : Type) where
  pending : List (Section α) := []
  stage : Stage α := .idle
  /-- The guards that it has, the latest first. -/
  guards : List Guard := []
  /-- The answers of the sections it is done with, in order. -/
  answers : List α := []

/-- The guard whose lock a worker is taking or giving back, and how many it has
besides. -/
def Worker.contended? {α : Type} (worker : Worker α) : Option (Guard × Nat) :=
  match worker.stage with
  | .acquiring guard _ => some (guard, worker.guards.length)
  | .leaving =>
    match worker.guards with
    | [] => none
    | guard :: rest => some (guard, rest.length)
  | .idle | .working _ => none

/-- Trees, their locks, and the threads that work on them. -/
structure Forest (α : Type) where
  locks : List System
  trees : List (Option SharedTree)
  workers : List (Worker α)
  /-- How many guards a worker can have at a time. -/
  hands : Nat

/-- Where the lock of a shared tree lives. -/
inductive Locking
  /-- Each tree has a lock of its own. -/
  | internal
  /-- All trees are behind one lock. -/
  | external
  deriving DecidableEq, Repr

namespace Forest

variable {α : Type}

/-- Trees with keys in the order of their leading bytes, and no threads yet. -/
def plant (trees : List Tree) (locking : Locking) (hands : Nat) : Forest α where
  locks := match locking with
    | .internal => List.replicate trees.length (System.initial 0)
    | .external => [System.initial 0]
  trees := trees.mapIdx fun i tree =>
    let lock := match locking with
      | .internal => i
      | .external => 0
    some ⟨tree, KeyOrder.leading tree.options.keySize, lock⟩
  workers := []
  hands := hands

/-- The thread of a lock that a worker is with its guard number `k`, counted from its
first. -/
def seat (forest : Forest α) (i k : Nat) : Nat :=
  i * forest.hands + k

/-- A tree that is still shared. -/
def tree? (forest : Forest α) (tree : Nat) : Option SharedTree :=
  forest.trees[tree]?.join

/-- The lock of a tree. -/
def lockOf? (forest : Forest α) (tree : Nat) : Option System := do
  let shared ← forest.tree? tree
  forest.locks[shared.lock]?

/-- What the lock of a tree shows. -/
def snapshot? (forest : Forest α) (tree : Nat) : Option Snapshot :=
  (forest.lockOf? tree).map (·.snapshot)

/-- Whether a thread that takes a guard would have to wait. -/
def wouldBlock (forest : Forest α) (guard : Guard) : Bool :=
  (forest.lockOf? guard.tree).any fun system => system.core.word.blocks guard.mode

/-- Whether two trees are behind the same lock. -/
def sameLock (forest : Forest α) (tree other : Nat) : Bool :=
  match forest.tree? tree, forest.tree? other with
  | some a, some b => a.lock == b.lock
  | _, _ => false

/-- The forest with the lock of a tree changed. -/
def setLockOf (forest : Forest α) (tree : Nat) (system : System) : Forest α :=
  match forest.tree? tree with
  | none => forest
  | some shared => { forest with locks := forest.locks.set shared.lock system }

/-- The forest with a tree changed. -/
def modifyTree (forest : Forest α) (tree : Nat) (f : Tree → Tree) : Forest α :=
  { forest with
    trees := forest.trees.modify tree (·.map fun shared => { shared with tree := f shared.tree }) }

/-- The forest with a worker changed. -/
def setWorker (forest : Forest α) (worker : Nat) (state : Worker α) : Forest α :=
  { forest with workers := forest.workers.set worker state }

/-- The forest with one more worker, and its number. -/
def hire (forest : Forest α) (sections : List (Section α)) : Forest α × Nat :=
  ({ forest with
      locks := forest.locks.map fun system =>
        { system with threads := system.threads ++ List.replicate forest.hands .outside }
      workers := forest.workers ++ [{ pending := sections }] },
    forest.workers.length)

/-- The start of taking a guard by a worker, with this much to do once it has it; none
if it has its hands full. -/
def begin? (forest : Forest α) (i : Nat) (worker : Worker α) (guard : Guard) (next : Work α) :
    Option (Forest α) :=
  if worker.guards.length < forest.hands then do
    let system ← forest.lockOf? guard.tree
    let started ← system.start? (forest.seat i worker.guards.length)
      (.acquire guard.mode .untilHeld)
    some <| (forest.setLockOf guard.tree started).setWorker i
      { worker with stage := .acquiring guard next }
  else
    none

/-- A step of a worker; none if it has nothing to do or cannot go on. -/
def step? (forest : Forest α) (i : Nat) : Option (Forest α) := do
  let worker ← forest.workers[i]?
  match worker.stage with
  | .idle =>
    match worker.pending with
    | [] => none
    | first :: rest => forest.begin? i { worker with pending := rest } first.guard first.work
  | .acquiring guard next => do
    let seat := forest.seat i worker.guards.length
    let system ← forest.lockOf? guard.tree
    let moved ← system.step? seat
    let state : Worker α := if moved.point seat = .holding guard.mode then
        { worker with stage := .working next, guards := guard :: worker.guards }
      else worker
    some ((forest.setLockOf guard.tree moved).setWorker i state)
  | .working (.take guard next) => forest.begin? i worker guard next
  | .working (.look tree next) =>
    if worker.guards.any (·.tree = tree) then do
      let shared ← forest.tree? tree
      some (forest.setWorker i { worker with stage := .working (next shared) })
    else
      none
  | .working (.change tree f next) =>
    if ⟨tree, .exclusive⟩ ∈ worker.guards then
      some <| (forest.modifyTree tree f).setWorker i { worker with stage := .working next }
    else
      none
  | .working (.done answer) =>
    some <| forest.setWorker i
      { worker with stage := .leaving, answers := worker.answers ++ [answer] }
  | .leaving =>
    match worker.guards with
    | [] => some (forest.setWorker i { worker with stage := .idle })
    | guard :: rest => do
      let seat := forest.seat i rest.length
      let system ← forest.lockOf? guard.tree
      if system.point seat = .holding guard.mode then
        some (forest.setLockOf guard.tree (← system.start? seat .release))
      else if system.point seat = .outside then
        some (forest.setWorker i { worker with guards := rest })
      else
        some (forest.setLockOf guard.tree (← system.step? seat))

/-- An exchange by a worker at the lock of its guard that fails for no reason. -/
def misfire? (forest : Forest α) (i : Nat) : Option (Forest α) := do
  let worker ← forest.workers[i]?
  let (guard, k) ← worker.contended?
  let system ← forest.lockOf? guard.tree
  some (forest.setLockOf guard.tree (← system.misfire? (forest.seat i k)))

/-- What one step of a worker makes of a forest. -/
inductive Moves (forest : Forest α) (i : Nat) : Forest α → Prop
  | step {after : Forest α} (stepped : forest.step? i = some after) : Moves forest i after
  | misfire {after : Forest α} (misfired : forest.misfire? i = some after) : Moves forest i after

end Forest

namespace Forest

variable {α : Type}

/-! ## Running until all is done -/

/-- A step of the first worker that can go on. -/
def next? (forest : Forest α) : Option (Forest α) :=
  (List.range forest.workers.length).findSome? forest.step?

/-- More steps than it takes to finish everything that is pending. -/
def patience (forest : Forest α) : Nat :=
  4096 * forest.workers.foldl (fun steps worker => steps + worker.pending.length + 1) 1

/-- The forest once no worker can go on. -/
def settle (forest : Forest α) : Forest α :=
  Lock.settleWith next? forest.patience forest

/-- The answers of several workers, each with sections of its own, once all are done. -/
def perform (forest : Forest α) (sections : List (List (Section α))) : List α × Forest α :=
  let hired := sections.foldl (fun forest sections => (forest.hire sections).1) forest
  let settled := hired.settle
  ((settled.workers.drop forest.workers.length).flatMap (·.answers), settled)

end Forest

/-- A shared tree behind a lock that shows a snapshot, on one line. -/
def describe (snapshot : Snapshot) : String :=
  s!"SharedTree \x7b lock: {snapshot.describe}, .. \x7d"

end SlabTree.Shared

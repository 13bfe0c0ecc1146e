import SlabTree.Lock.Thread

/-!
# Locks and their threads

A lock together with all threads that use it.  `Step` is one step of any thread:
the start of a call, a step of its own, or an exchange that fails for no reason.
Every interleaving is a chain of such steps.

To answer what a lock comes to once everything has calmed down, a system is also
run by a schedule that steps threads until none can go on; of the threads that
can, those that want exclusive access come first.
-/

namespace SlabTree.Lock

/-- A lock and where each thread stands. -/
structure System where
  core : Core
  threads : List Point

namespace System

/-- A free lock with `n` threads outside. -/
def initial (n : Nat) : System where
  core := ⟨0, false⟩
  threads := List.replicate n .outside

/-- Where a thread stands; a thread that does not exist stands outside. -/
def point (system : System) (thread : Nat) : Point :=
  system.threads[thread]?.getD .outside

/-- The system with a thread moved elsewhere. -/
def setPoint (system : System) (thread : Nat) (point : Point) : System :=
  { system with threads := system.threads.set thread point }

/-- The system after a step of a thread. -/
def apply (system : System) (thread : Nat) (move : Move) : System :=
  let threads := system.threads.set thread move.point
  { core := move.core
    threads := if move.notifies then threads.map Point.woken else threads }

/-- The start of a call by a thread. -/
def start? (system : System) (thread : Nat) (call : Call) : Option System := do
  let point ← system.threads[thread]?
  let next ← point.start? call
  some (system.setPoint thread next)

/-- A step of a thread by itself. -/
def step? (system : System) (thread : Nat) : Option System := do
  let point ← system.threads[thread]?
  let move ← point.step? system.core
  some (system.apply thread move)

/-- An exchange by a thread that fails for no reason. -/
def misfire? (system : System) (thread : Nat) : Option System := do
  let point ← system.threads[thread]?
  let next ← point.misfire? system.core
  some (system.setPoint thread next)

end System

/-- One step of one thread. -/
inductive Step (system : System) : System → Prop
  | start {thread : Nat} {call : Call} {after : System}
      (started : system.start? thread call = some after) : Step system after
  | step {thread : Nat} {after : System}
      (stepped : system.step? thread = some after) : Step system after
  | misfire {thread : Nat} {after : System}
      (misfired : system.misfire? thread = some after) : Step system after

/-- The systems that some interleaving leads to from a free lock. -/
inductive Reachable (n : Nat) : System → Prop
  | initial : Reachable n (System.initial n)
  | step {system after : System} (before : Reachable n system) (next : Step system after) :
      Reachable n after

/-! ## Running until nothing moves -/

/-- Goes on for at most `fuel` steps. -/
def settleWith {σ : Type} (next : σ → Option σ) : Nat → σ → σ
  | 0, state => state
  | fuel + 1, state =>
    match next state with
    | none => state
    | some after => settleWith next fuel after

namespace System

/-- The threads, those that want exclusive access first. -/
def schedule (system : System) : List Nat :=
  let (writers, others) := (List.range system.threads.length).partition
    fun thread => (system.point thread).wantsExclusive
  writers ++ others

/-- A step of the first scheduled thread that can go on. -/
def next? (system : System) : Option System :=
  system.schedule.findSome? system.step?

/-- More steps than the threads of a system can take before all of them rest. -/
def patience (system : System) : Nat :=
  4096 * (system.threads.length + 1)

/-- The system once no thread can go on. -/
def settle (system : System) : System :=
  settleWith next? system.patience system

/-- The system with one more thread, outside, and the number of that thread. -/
def spawn (system : System) : System × Nat :=
  ({ system with threads := system.threads ++ [.outside] }, system.threads.length)

/-- Makes a call and lets everything calm down. -/
def perform (system : System) (thread : Nat) (call : Call) : System :=
  ((system.start? thread call).getD system).settle

/-- What the lock shows. -/
def snapshot (system : System) : Snapshot :=
  system.core.word.snapshot

end System

end SlabTree.Lock

import SlabTree.Lock.System

/-!
# Guards under names

A lock whose guards are kept under names.  Attempts that do not wait are made on
the spot; a call that may wait is made by a thread of its own, which is heard of
again when it gets in.
-/

namespace SlabTree.Lock

/-- A lock, its named guards and its named threads. -/
structure Roster where
  system : System := System.initial 0
  /-- The guards that are held, by name. -/
  guards : List (String × Nat) := []
  /-- The threads that wait to get in, by name. -/
  pending : List (String × Nat) := []

namespace Roster

/-- Names in order. -/
def sorted (names : List String) : List String :=
  names.mergeSort

/-- The roster without the guard of a name. -/
def dropGuard (roster : Roster) (name : String) : Roster :=
  match roster.guards.lookup name with
  | none => roster
  | some thread =>
      { roster with
        system := roster.system.perform thread .release
        guards := roster.guards.filter fun guard => guard.1 ≠ name }

/-- The roster with a guard under a name, in place of a former one. -/
def keepGuard (roster : Roster) (name : String) (thread : Nat) : Roster :=
  let freed := roster.dropGuard name
  { freed with guards := freed.guards ++ [(name, thread)] }

/-- Tries to get in without waiting, and keeps the guard. -/
def attempt (roster : Roster) (name : String) (mode : Mode) : Bool × Roster :=
  let (system, thread) := roster.system.spawn
  let tried := { roster with system := system.perform thread (.acquire mode .once) }
  if tried.system.point thread = .holding mode then
    (true, tried.keepGuard name thread)
  else
    (false, tried)

/-- Starts a thread that waits until it gets in. -/
def await (roster : Roster) (name : String) (mode : Mode) : Roster :=
  let (system, thread) := roster.system.spawn
  { roster with
    system := system.perform thread (.acquire mode .untilHeld)
    pending := roster.pending ++ [(name, thread)] }

/-- Gives a guard up; answers whether there was one. -/
def release (roster : Roster) (name : String) : Bool × Roster :=
  ((roster.guards.lookup name).isSome, roster.dropGuard name)

/-- Whether a thread is inside. -/
def isInside (system : System) (thread : Nat) : Bool :=
  match system.point thread with
  | .holding _ => true
  | _ => false

/-- The names of the threads that got in since the last time, and the roster
with their guards. -/
def collect (roster : Roster) : List String × Roster :=
  let (arrived, pending) := roster.pending.partition fun entry =>
    isInside roster.system entry.2
  let start := { roster with pending := pending }
  (sorted (arrived.map (·.1)),
    arrived.foldl (fun roster entry => roster.keepGuard entry.1 entry.2) start)

/-- The names of the threads that wait. -/
def blocked (roster : Roster) : List String :=
  sorted (roster.pending.map (·.1))

/-- Gives all guards up and lets all threads through, in at most `fuel` rounds. -/
def finish : Nat → Roster → Roster
  | 0, roster => roster
  | fuel + 1, roster =>
    let freed := roster.guards.foldl (fun roster guard => roster.dropGuard guard.1) roster
    let (arrived, after) := freed.collect
    if arrived.isEmpty then after else finish fuel after

/-- The lock once all guards are given up and all threads are through. -/
def finished (roster : Roster) : Roster :=
  finish (roster.pending.length + 1) roster

end Roster

end SlabTree.Lock
